import Reckon.Arithmetic
import Reckon.Binary64.Shortest
import Reckon.Decimal.Rounding
import Reckon.Value.Atom

/-!
# Values

A value is a number, or the text of an expression that still depends on names without a binding. An
operator on two numbers computes; with text on either side it composes text in parentheses. Numbers
up to `1e-7` in magnitude count as zero.
-/

namespace Reckon

/-- A number or symbolic text. -/
inductive Value where
  | number (value : Decimal)
  | symbolic (text : String)
deriving DecidableEq, Repr, Inhabited

namespace Value

/-- The value 0. -/
def zero : Value := .number .zero

/-- The value 1. -/
def one : Value := .number .one

/-- The value -1. -/
def negOne : Value := .number .negOne

/-- A number from its digits as a value. The last `places` of them stand behind the point. -/
def ofDigits (digits : Nat) (places : Nat := 0) (small : digits < 2 ^ 96 := by decide)
    (short : places ≤ 28 := by decide) : Value :=
  .number ⟨false, digits, places, small, short⟩

/-- How a value is written. -/
def render : Value → String
  | number value => value.render
  | symbolic text => text

/-- The number, if the value is one. -/
def number? : Value → Option Decimal
  | number value => some value
  | symbolic _ => none

/-- Whether the value is a number. -/
def isNumeric : Value → Bool
  | number _ => true
  | symbolic _ => false

/-- Whether the value counts as zero: a negligible number, or empty text. -/
def isZero : Value → Bool
  | number value => value.isNegligible
  | symbolic text => text.isEmpty

/-- Whether the value counts as one: a number whose distance to 1 is negligible. The distance may
have no room. -/
def isOne : Value → Except Fault Bool
  | number value =>
    match value.sub? .one with
    | some distance => .ok distance.isNegligible
    | none => .error .uncheckedSubtraction
  | symbolic _ => .ok false

/-- Whether two values are equal, numbers compared by value. -/
def same : Value → Value → Bool
  | number a, number b => a.same b
  | symbolic a, symbolic b => a == b
  | _, _ => false

/-- The operator applied to two values. -/
def combine (op : Operator) (left right : Value) : Except Fault Value :=
  match left, right with
  | number a, number b => (op.apply a b).map number
  | _, _ => .ok (symbolic ("(" ++ left.render ++ " " ++ op.symbol ++ " " ++ right.render ++ ")"))

/-- The sum. -/
def add (left right : Value) : Except Fault Value :=
  combine .add left right

/-- The difference. -/
def sub (left right : Value) : Except Fault Value :=
  combine .subtract left right

/-- The product. -/
def mul (left right : Value) : Except Fault Value :=
  combine .multiply left right

/-- The quotient. -/
def div (left right : Value) : Except Fault Value :=
  combine .divide left right

/-- The value with the other sign. Text that is no atom is parenthesized. -/
def negate : Value → Value
  | number value => number value.neg
  | symbolic text =>
    if Text.isAtom text.toList then symbolic ("-" ++ text) else symbolic ("-(" ++ text ++ ")")

/-- The value with a sign in front. -/
def withSign (sign : Sign) (value : Value) : Value :=
  match sign with
  | .positive => value
  | .negative => value.negate

/-- The value to the given places; what counts as zero becomes zero. Text stays as it is. -/
def rounded (places : Nat) : Value → Value
  | number value =>
    if value.isNegligible then zero
    else number (value.roundTo places).normalize
  | symbolic text => symbolic text

/-- The value of a computed float, which must be finite and in range. -/
def ofFloat (x : Float) : Except Fault Value :=
  if !x.isFinite then .error (.arithmetic (.nonFinite (Binary64.text x)))
  else
    match Decimal.ofFloat? x with
    | some value => .ok (number value)
    | none => .error (.arithmetic (.outsideRange (Binary64.text x)))

/-- Two numbers are combined exactly when the operator takes them. -/
theorem combine_numbers_eq_ok {op : Operator} {a b : Decimal} {v : Value} :
    combine op (number a) (number b) = .ok v ↔ ∃ d, op.apply a b = .ok d ∧ v = number d := by
  rw [combine]
  cases op.apply a b with
  | error fault => exact ⟨nofun, nofun⟩
  | ok d => simp [Except.map, eq_comm]

/-- Combining numbers gives a number. -/
theorem isNumeric_of_combine {op : Operator} {v w u : Value} (left : v.isNumeric = true)
    (right : w.isNumeric = true) (result : combine op v w = .ok u) : u.isNumeric = true := by
  cases v with
  | symbolic text => cases left
  | number a =>
    cases w with
    | symbolic text => cases right
    | number b =>
      obtain ⟨d, _, rfl⟩ := combine_numbers_eq_ok.1 result
      rfl

/-- Text on the left is written down with the other value in parentheses. -/
theorem combine_symbolic_left (op : Operator) (text : String) (right : Value) :
    combine op (symbolic text) right =
      .ok (symbolic ("(" ++ text ++ " " ++ op.symbol ++ " " ++ right.render ++ ")")) := rfl

/-- Text on the right is written down with the other value in parentheses. -/
theorem combine_symbolic_right (op : Operator) (left : Value) (text : String) :
    combine op left (symbolic text) =
      .ok (symbolic ("(" ++ left.render ++ " " ++ op.symbol ++ " " ++ text ++ ")")) := by
  cases left <;> rfl

/-- Rounding leaves text as it is. -/
@[simp] theorem rounded_symbolic (places : Nat) (text : String) :
    (symbolic text).rounded places = symbolic text := rfl

/-- Rounding makes no text. -/
theorem rounded_eq_symbolic {places : Nat} {v : Value} {text : String} :
    v.rounded places = symbolic text ↔ v = symbolic text := by
  cases v with
  | symbolic own => rfl
  | number d =>
    rw [rounded]
    split <;> exact ⟨nofun, nofun⟩

end Value

end Reckon
