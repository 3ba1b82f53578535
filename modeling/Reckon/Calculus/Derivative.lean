import Reckon.Calculus.Annotation
import Reckon.Session

/-!
# Derivatives

The first derivative of a tree with respect to a variable: sums, products, quotients, powers with a
constant exponent or a constant base, and signs. Parts that are kept are reduced to numbers where
they hold no free names, and the results are put together by constructors that drop zeros and ones
and gather numeric factors. A derivative without free names is a number, any other one compact text.
-/

namespace Reckon

namespace Expr

/-- A number as a tree, without zeros at the end of its fraction. -/
def ofNumber (value : Decimal) : Expr :=
  .number value.normalize

/-- The number 0 as a tree. -/
def zero : Expr := .number .zero

/-- The number that a tree is. -/
def number? : Expr → Option Decimal
  | .number value => some value
  | _ => none

/-- Whether a tree is the given number. -/
def isNumber (e : Expr) (value : Decimal) : Bool :=
  match e.number? with
  | some own => own.same value
  | none => false

/-- The negative of a tree. -/
def negated : Expr → Expr
  | .number value => ofNumber value.neg
  | .signed .negative operand => operand
  | e => .signed .negative e

/-- The sum of two trees. -/
def plus (a b : Expr) : Expr :=
  match a.number?, b.number? with
  | some x, some y =>
    if x.isZero then b
    else if y.isZero then a
    else
      match x.add? y with
      | some sum => ofNumber sum
      | none => .binary .add a b
  | some x, none => if x.isZero then b else .binary .add a b
  | none, some y =>
    if y.isZero then a
    else if y.negative then .binary .subtract a (ofNumber y.neg)
    else .binary .add a b
  | none, none => .binary .add a b

/-- The difference of two trees. -/
def minus (a b : Expr) : Expr :=
  match a.number?, b.number? with
  | some x, some y =>
    if y.isZero then a
    else if x.isZero then b.negated
    else
      match x.sub? y with
      | some difference => ofNumber difference
      | none => .binary .subtract a b
  | some x, none => if x.isZero then b.negated else .binary .subtract a b
  | none, some y =>
    if y.isZero then a
    else if y.negative then .binary .add a (ofNumber y.neg)
    else .binary .subtract a b
  | none, none => .binary .subtract a b

/-- A number times a tree. The number is multiplied into a number that leads a product. -/
def scaled (c : Decimal) (e : Expr) : Expr :=
  if c.isZero || e.isNumber .zero then zero
  else if c.same .one then e
  else if e.isNumber .one then .number c
  else
    match e with
    | .number x =>
      match c.mul? x with
      | some product => ofNumber product
      | none => .binary .multiply (.number c) e
    | .binary .multiply (.number x) rest =>
      match c.mul? x with
      | some product => scaled product.normalize rest
      | none => .binary .multiply (.number c) e
    | _ => .binary .multiply (.number c) e

/-- The product of two trees, a number standing in front. -/
def times (a b : Expr) : Expr :=
  match a.number?, b.number? with
  | some x, _ => scaled x b
  | none, some y => scaled y a
  | none, none => .binary .multiply a b

/-- The quotient of two trees. -/
def dividedBy (a b : Expr) : Expr :=
  if a.isNumber .zero then zero
  else if b.isNumber .one then a
  else
    match a.number?, b.number? with
    | some x, some y =>
      match x.div? y with
      | some quotient => ofNumber quotient
      | none => .binary .divide a b
    | _, _ => .binary .divide a b

/-- A tree to the power of another one. -/
def toThe (base exponent : Expr) : Expr :=
  if exponent.isNumber .zero then ofNumber .one
  else if exponent.isNumber .one then base
  else .binary .power base exponent

/-- Whether a tree is a minus sign in front of a plain variable. -/
def isNegatedVariable : Expr → Bool
  | .signed .negative (.variable _ none) => true
  | _ => false

/-- A number less one, for which there has to be room. -/
def lessOne (n : Decimal) : Except Fault Decimal :=
  match n.sub? .one with
  | some lower => .ok lower
  | none => .error .uncheckedSubtraction

/-- What a derivative is taken in: the settings, a scope without variables, and the variable. -/
structure Setting where
  settings : Settings
  /-- Constants and functions; variables stay free. -/
  scope : Scope
  /-- The variable of differentiation. -/
  variableName : String

namespace Setting

/-- A part that is kept, as a number if it holds no free names. -/
def fold (s : Setting) (e : Expr) : Except Fault Expr :=
  match e.eval s.settings s.scope with
  | .error fault => .error fault
  | .ok value =>
    match value.rounded s.settings.precision with
    | .number rounded => .ok (.number rounded)
    | .symbolic _ => .ok e

/-- Folding evaluates a tree and puts its rounded value in the place of the tree, if that is a
number. -/
theorem fold_eq (s : Setting) (e : Expr) :
    s.fold e = e.eval s.settings s.scope >>= fun value =>
      match value.rounded s.settings.precision with
      | .number rounded => .ok (.number rounded)
      | .symbolic _ => .ok e := by
  rw [fold]
  cases e.eval s.settings s.scope <;> rfl

/-- The derivative of a variable; a minus sign right in front of a plain one is taken into it. -/
def deriveVariable (s : Setting) (belowMinus : Bool) (name : String) :
    Option Monomial → Except Fault Expr
  | none =>
    if name ≠ s.variableName then .ok zero
    else .ok (ofNumber (if belowMinus then .negOne else .one))
  | some term =>
    if name ≠ s.variableName then .ok zero
    else if term.exponent.isZero then .ok zero
    else
      match term.coefficient.mul? term.exponent with
      | none => .error (.arithmetic .coefficientOverflow)
      | some coefficient => do
        let exponent ← lessOne term.exponent
        .ok (times (ofNumber coefficient) (toThe (.plain name) (ofNumber exponent)))

/-- The derivative of a power with a constant exponent, before the factor of its base. -/
def powerRule (s : Setting) (base exponent : Expr) : Except Fault Expr := do
  let exponent ← s.fold exponent
  let lowered ← match exponent with
    | .number n => (lessOne n).map ofNumber
    | other => .ok (minus other (ofNumber .one))
  let base ← s.fold base
  .ok (times exponent (toThe base lowered))

/-- The derivative of a power with a constant base, before the factor of its exponent. -/
def exponentialRule (s : Setting) (base exponent : Expr) : Except Fault Expr := do
  let base ← s.fold base
  let ln ← s.fold (.call "ln" [base])
  let exponent ← s.fold exponent
  .ok (times (toThe base exponent) ln)

/-- The derivative of a tree at a depth; `belowMinus` says that the tree is a plain variable right
behind a minus sign. -/
def derive (s : Setting) (belowMinus : Bool) (depth : Nat) (e : Expr) : Except Fault Expr :=
  if s.settings.maxDepth < depth then .error (.depthExceeded s.settings.maxDepth)
  else
    match e with
    | .number _ => .ok zero
    | .variable name term => s.deriveVariable belowMinus name term
    | .signed sign operand => do
      let inner ← s.derive (Expr.signed sign operand).isNegatedVariable (depth + 1) operand
      if sign = .positive || (Expr.signed sign operand).isNegatedVariable then .ok inner
      else .ok inner.negated
    | .binary .add left right => do
      let df ← s.derive false (depth + 1) left
      let dg ← s.derive false (depth + 1) right
      .ok (plus df dg)
    | .binary .subtract left right => do
      let df ← s.derive false (depth + 1) left
      let dg ← s.derive false (depth + 1) right
      .ok (minus df dg)
    | .binary .multiply left right => do
      let f ← s.fold left
      let g ← s.fold right
      let df ← s.derive false (depth + 1) left
      let dg ← s.derive false (depth + 1) right
      .ok (plus (times df g) (times f dg))
    | .binary .divide left right => do
      let f ← s.fold left
      let g ← s.fold right
      let df ← s.derive false (depth + 1) left
      if !right.mentions s.variableName then .ok (dividedBy df g)
      else
        let dg ← s.derive false (depth + 1) right
        .ok (dividedBy (minus (times df g) (times f dg)) (toThe g (ofNumber .two)))
    | .binary .power left right =>
      match left.mentions s.variableName, right.mentions s.variableName with
      | false, false => .ok zero
      | true, false => do
        let outer ← s.powerRule left right
        let inner ← s.derive false (depth + 1) left
        .ok (times outer inner)
      | false, true => do
        let outer ← s.exponentialRule left right
        let inner ← s.derive false (depth + 1) right
        .ok (times outer inner)
      | true, true => .error (.unsupported (.derivativeOfPower s.variableName))
    | .binary op _ _ => .error (.unsupported (.derivativeOfOperator op))
    | .call name args =>
      if (Expr.call name args).mentions s.variableName then
        .error (.unsupported (.derivativeOfCall name s.variableName))
      else .ok zero
    | .vector _ | .matrix _ | .definition _ _ _ => .error (.unsupported (.derivativeOfKind e.kind))

end Setting

/-- The derivative of a tree as a value. -/
def differentiate (settings : Settings) (scope : Scope) (variableName : String) (e : Expr) :
    Except Fault Value := do
  let setting : Setting := ⟨settings, scope.child, variableName⟩
  let derivative ← setting.derive false 0 e
  let value ← derivative.eval settings setting.scope
  match value with
  | .number _ => .ok (value.rounded settings.precision)
  | .symbolic _ => .ok (.symbolic derivative.annotate.render)

end Expr

namespace Session

/-- The derivative of a tree. -/
def differentiateTree (s : Session) (variableName : String) (e : Expr) : Except Fault Value :=
  e.differentiate s.settings s.scope variableName

/-- The derivative of a text. -/
def differentiate (s : Session) (text variableName : String) : Except Fault Value × Session :=
  s.withTree text fun s e => s.differentiateTree variableName e

end Session

end Reckon
