import Reckon.Decimal.Text
import Reckon.Expr.Basic

/-!
# Faults

Every way in which an operation can fail, by cause, and the message that each cause is reported
with. The causes fall into the families of `Fault`; a fault ends the operation that meets it.
-/

namespace Reckon

/-- Why a token does not fit where it stands. Each cause but the last names the token it found. -/
inductive ParseProblem where
  | unexpected (found : String)
  | unclosedParenthesis (found : String)
  | noParameterName (found : String)
  | unclosedParameters (found : String)
  | noEqualsSign (found : String)
  | noArgumentSeparator (name found : String)
  | unterminatedVector
  | notADefinition (kind : Expr.Kind)
deriving DecidableEq, Repr

/-- What is wrong with the shape of a matrix or with an index into it. -/
inductive ShapeProblem where
  | noColumns
  | noRows
  | unevenColumn (index found expected : Nat)
  | unevenRows
  | columnOutside (column rows cols : Nat)
  | rowOutside (row rows cols : Nat)
  | entryOutside (row column rows cols : Nat)
  | unequalRows (left right : Nat)
  | noColumnsLeft (start cols : Nat)
  | unequalInner (rows cols otherRows otherCols : Nat)
  | determinantNotSquare (rows cols : Nat)
  | characteristicNotSquare (rows cols : Nat)
  | triangularNotSquare (rows cols : Nat)
  | inverseNotSquare (rows cols : Nat)
  | systemNotSquare (rows cols : Nat)
  | rightSideLength (found expected : Nat)
  | notAMatrix (kind : Expr.Kind)
  | notAVector (kind : Expr.Kind)
deriving DecidableEq, Repr

/-- Why a number could not be computed. -/
inductive ArithmeticProblem where
  | additionOverflow
  | subtractionOverflow
  | multiplicationOverflow
  | divisionOverflow
  | divisionByZero
  | powerOverflow (base exponent : Decimal)
  | zeroToNegativePower
  | negativeBase (base exponent : Decimal)
  | nonFinite (result : String)
  | outsideRange (result : String)
  | integralOverflow
  | coefficientOverflow
  | boundNotNumeric (text : String)
  | integrandNotNumeric (text : String)
  /-- A cause in the words of a function from outside the library. -/
  | reported (text : String)
deriving DecidableEq, Repr

/-- What is asked for and not provided. -/
inductive UnsupportedRequest where
  | integrationOver (kind : Expr.Kind)
  | derivativeOfCall (name variableName : String)
  | derivativeOfKind (kind : Expr.Kind)
  | derivativeOfPower (variableName : String)
  | derivativeOfOperator (op : Operator)
  | inverseOfSymbols
deriving DecidableEq, Repr

/-- A failure, by cause. -/
inductive Fault where
  /-- Text that starts no token, or a number without room, at a byte position. -/
  | unrecognized (found : String) (position : Nat)
  | parse (problem : ParseProblem) (position : Nat)
  | unresolvedFunction (name : String)
  | duplicateFunction (name : String)
  | arity (name : String) (expected found : Nat)
  | shape (problem : ShapeProblem)
  | singularMatrix
  | arithmetic (problem : ArithmeticProblem)
  | depthExceeded (limit : Nat)
  | notScalar (kind : Expr.Kind)
  | unsupported (request : UnsupportedRequest)
  | unknownOperator (text : String)
  /-- A subtraction of 1 without room for its result, where none is provided for. -/
  | uncheckedSubtraction
deriving DecidableEq, Repr

namespace ParseProblem

/-- The message of a parse problem, without its position. -/
def message : ParseProblem → String
  | unexpected found => s!"unexpected {found}"
  | unclosedParenthesis found => s!"missing closing parenthesis, found {found}"
  | noParameterName found => s!"expected parameter name, found {found}"
  | unclosedParameters found => s!"expected ')' after parameter list, found {found}"
  | noEqualsSign found => s!"expected '=' after parameter list, found {found}"
  | noArgumentSeparator name found => s!"expected ',' or ')' in call to {name}, found {found}"
  | unterminatedVector => "unterminated vector literal"
  | notADefinition kind => s!"expected a function definition, found a {kind.text}"

end ParseProblem

/-- How messages write a shape. -/
def shapeText (rows cols : Nat) : String :=
  s!"{rows}x{cols}"

namespace ShapeProblem

/-- The message of a shape problem. -/
def message : ShapeProblem → String
  | noColumns => "a matrix needs at least one column"
  | noRows => "a matrix needs at least one row"
  | unevenColumn index found expected =>
    s!"column {index} has {found} entries, expected {expected}"
  | unevenRows => "rows have different lengths"
  | columnOutside column rows cols =>
    s!"column {column} is outside a {shapeText rows cols} matrix"
  | rowOutside row rows cols => s!"row {row} is outside a {shapeText rows cols} matrix"
  | entryOutside row column rows cols =>
    s!"entry ({row}, {column}) is outside a {shapeText rows cols} matrix"
  | unequalRows left right => s!"cannot augment {left} rows with {right} rows"
  | noColumnsLeft start cols => s!"no columns left after dropping {start} of {cols}"
  | unequalInner rows cols otherRows otherCols =>
    s!"cannot multiply {shapeText rows cols} by {shapeText otherRows otherCols}"
  | determinantNotSquare rows cols =>
    s!"determinant needs a square matrix, got {shapeText rows cols}"
  | characteristicNotSquare rows cols =>
    s!"characteristic polynomial needs a square matrix, got {shapeText rows cols}"
  | triangularNotSquare rows cols => s!"cannot triangularize a {shapeText rows cols} matrix"
  | inverseNotSquare rows cols => s!"cannot invert a {shapeText rows cols} matrix"
  | systemNotSquare rows cols => s!"cannot solve a {shapeText rows cols} system"
  | rightSideLength found expected =>
    s!"right-hand side has {found} entries, expected {expected}"
  | notAMatrix kind => s!"expected a matrix literal, found a {kind.text}"
  | notAVector kind => s!"expected a vector, found a {kind.text}"

end ShapeProblem

namespace ArithmeticProblem

/-- The message of an arithmetic problem. -/
def message : ArithmeticProblem → String
  | additionOverflow => "addition overflow"
  | subtractionOverflow => "subtraction overflow"
  | multiplicationOverflow => "multiplication overflow"
  | divisionOverflow => "division overflow"
  | divisionByZero => "division by zero"
  | powerOverflow base exponent => base.text ++ " ^ " ++ exponent.text ++ " overflows"
  | zeroToNegativePower => "zero cannot be raised to a negative power"
  | negativeBase base exponent =>
    "negative base " ++ base.text ++ " with non-integer exponent " ++ exponent.text
  | nonFinite result => s!"non-finite result {result}"
  | outsideRange result => s!"{result} is outside the decimal range"
  | integralOverflow => "integral overflows the decimal range"
  | coefficientOverflow => "coefficient overflow"
  | boundNotNumeric text => s!"integration bound {text} is not numeric"
  | integrandNotNumeric text => s!"integrand {text} is not numeric"
  | reported text => text

end ArithmeticProblem

namespace UnsupportedRequest

/-- The message of an unsupported request. -/
def message : UnsupportedRequest → String
  | integrationOver kind =>
    s!"the variable of integration must be a plain name, found {kind.text}"
  | derivativeOfCall name variableName =>
    s!"differentiating {name}() with respect to {variableName}"
  | derivativeOfKind kind => s!"differentiating a {kind.text}"
  | derivativeOfPower variableName =>
    s!"differentiating a power with {variableName} in both base and exponent"
  | derivativeOfOperator op => s!"differentiating the '{op.symbol}' operator"
  | inverseOfSymbols => "inverting a matrix with symbolic entries"

end UnsupportedRequest

namespace Fault

/-- The message of a fault. -/
def message : Fault → String
  | unrecognized found position => s!"unrecognized input '{found}' at position {position}"
  | parse problem position => s!"parse error at position {position}: {problem.message}"
  | unresolvedFunction name => s!"unable to locate function '{name}' in context"
  | duplicateFunction name => s!"function '{name}' already exists in context"
  | arity name expected found =>
    s!"function '{name}' expects {expected} argument(s) but got {found}"
  | shape problem => s!"invalid matrix shape: {problem.message}"
  | singularMatrix => "matrix is singular and has no inverse"
  | arithmetic problem => s!"arithmetic error: {problem.message}"
  | depthExceeded limit => s!"expression nesting exceeds the limit of {limit}"
  | notScalar kind => s!"{kind.text} cannot be evaluated to a value"
  | unsupported request => s!"unsupported operation: {request.message}"
  | unknownOperator text => s!"Unknown operator: {text}"
  | uncheckedSubtraction => "Subtraction overflowed"

/-- Whether the fault is about a function's name: unknown, or taken already. -/
def isNameFault : Fault → Bool
  | unresolvedFunction _ => true
  | duplicateFunction _ => true
  | _ => false

end Fault

/-- A sequence of two computations succeeds if both do. -/
theorem bind_eq_ok {α β : Type} {x : Except Fault α} {f : α → Except Fault β} {b : β} :
    x >>= f = .ok b ↔ ∃ a, x = .ok a ∧ f a = .ok b := by
  constructor
  · intro h
    cases x with
    | error fault => cases h
    | ok a => exact ⟨a, rfl, h⟩
  · rintro ⟨a, rfl, result⟩
    exact result

end Reckon
