import Reckon.Calculus.Simpson
import Reckon.Expr.Printer
import Reckon.Scope

/-!
# Evaluating expressions

A tree is evaluated in a scope to a value. Names without a binding stand for themselves, and
whatever depends on them is text. `evalWithin` counts the levels of nesting that are still allowed:
every operand, argument and body of a function takes one, and without a level left evaluation is
refused. This is also what makes functions that call themselves end.
-/

namespace Reckon

namespace Value

/-- Calls a native function. With text among the arguments the call itself becomes text. -/
def callNative (settings : Settings) (name : String) (native : Native) (args : List Value) :
    Except Fault Value :=
  match args.mapM number? with
  | none => .ok (symbolic (name ++ "(" ++ commaSeparated (args.map render) ++ ")"))
  | some numbers =>
    match native.call settings.angle (numbers.map Decimal.toFloat) with
    | .error fault => .error fault
    | .ok result => ofFloat result

/-- The number that a value has to be, or else a fault. -/
def expectNumber (problem : String → ArithmeticProblem) : Value → Except Fault Decimal
  | number value => .ok value
  | symbolic text => .error (.arithmetic (problem text))

end Value

/-- A power of a value with a coefficient, as a monomial asks for it. -/
def Monomial.apply (term : Monomial) : Value → Except Fault Value
  | .number base =>
    match base.power term.exponent with
    | .error fault => .error fault
    | .ok power => (Operator.multiply.apply term.coefficient power).map .number
  | .symbolic text => .ok (.symbolic (term.render ("(" ++ text ++ ")")))

/-- The value of a variable that may carry a monomial. -/
def Scope.valueOf (scope : Scope) (name : String) (term : Option Monomial) : Except Fault Value :=
  match scope.binding? name, term with
  | some value, none => .ok value
  | none, none => .ok (.symbolic name)
  | some value, some term => term.apply value
  | none, some term => .ok (.symbolic (term.render name))

namespace Expr

/-- The name of the definite integral, unless a user function takes it. -/
def integralName : String := "int"

/-- The integral of a body over a variable, each sample in a scope that inherits. -/
def integrateWith (eval : Scope → Except Fault Value) (scope : Scope) (variableName : String)
    (lower upper : Decimal) : Except Fault Decimal :=
  simpson lower upper defaultIntervals fun x =>
    match eval (scope.inherit.bind variableName (.number x)) with
    | .error fault => .error fault
    | .ok value => value.expectNumber .integrandNotNumeric

/-- The `int` form: body, variable, lower and upper bound. -/
def integralForm (eval : Scope → Expr → Except Fault Value) (scope : Scope) (args : List Expr) :
    Except Fault Value :=
  match args with
  | [body, .variable name none, lower, upper] =>
    match eval scope lower with
    | .error fault => .error fault
    | .ok low =>
      match low.expectNumber .boundNotNumeric with
      | .error fault => .error fault
      | .ok low =>
        match eval scope upper with
        | .error fault => .error fault
        | .ok high =>
          match high.expectNumber .boundNotNumeric with
          | .error fault => .error fault
          | .ok high =>
            (integrateWith (fun inner => eval inner body) scope name low high).map .number
  | [_, other, _, _] => .error (.unsupported (.integrationOver other.kind))
  | _ => .error (.arity integralName 4 args.length)

/-- The value of a tree, with the given number of levels still allowed, its own included. -/
def evalWithin (settings : Settings) : (levels : Nat) → Scope → Expr → Except Fault Value
  | 0, _, _ => .error (.depthExceeded settings.maxDepth)
  | levels + 1, scope, e =>
    match e with
    | .number value => .ok (.number value)
    | .variable name term => scope.valueOf name term
    | .signed sign operand =>
      match evalWithin settings levels scope operand with
      | .error fault => .error fault
      | .ok value => .ok (value.withSign sign)
    | .binary op left right =>
      match evalWithin settings levels scope left with
      | .error fault => .error fault
      | .ok leftValue =>
        match evalWithin settings levels scope right with
        | .error fault => .error fault
        | .ok rightValue => leftValue.combine op rightValue
    | .call name args =>
      match scope.functions.get? name with
      | some f =>
        if args.length ≠ f.params.length then .error (.arity name f.params.length args.length)
        else
          match args.mapM (fun arg => evalWithin settings levels scope arg) with
          | .error fault => .error fault
          | .ok values =>
            evalWithin settings levels (scope.child.bindAll (f.params.zip values)) f.body
      | none =>
        if name = integralName then
          integralForm (fun inner e => evalWithin settings levels inner e) scope args
        else
          match scope.natives.get? name with
          | none => .error (.unresolvedFunction name)
          | some native =>
            match args.mapM (fun arg => evalWithin settings levels scope arg) with
            | .error fault => .error fault
            | .ok values => Value.callNative settings name native values
    | .vector _ | .matrix _ | .definition _ _ _ => .error (.notScalar e.kind)

/-- The value of a tree in a scope, not rounded. -/
def eval (settings : Settings) (scope : Scope) (e : Expr) : Except Fault Value :=
  evalWithin settings (settings.maxDepth + 1) scope e

end Expr

end Reckon
