import Reckon.Decimal.Arithmetic
import Reckon.Expr.Basic

/-!
# Monomials in trees

`Expr.annotate` folds products of a number and a variable, and powers of a variable with a number as
exponent, into variables that carry a monomial. What does not fold, or has no room for its
coefficient, is kept.
-/

namespace Reckon.Expr

/-- The monomial that a variable stands for. -/
def termOf? : Expr → Option (String × Monomial)
  | .variable name term => some (name, term.getD ⟨.one, .one⟩)
  | _ => none

/-- The product of a number and a variable, as one variable. -/
def scaledVariable? (c : Decimal) (e : Expr) : Option Expr :=
  match e.termOf? with
  | none => none
  | some (name, term) =>
    (c.mul? term.coefficient).map fun coefficient =>
      .variable name (some ⟨coefficient, term.exponent⟩)

/-- The variable that two operands fold into. -/
def foldTerm? (op : Operator) (left right : Expr) : Option Expr :=
  match op with
  | .multiply =>
    match left, right with
    | .number c, other => scaledVariable? c other
    | other, .number c => scaledVariable? c other
    | _, _ => none
  | .power =>
    match left, right with
    | .variable name none, .number n => some (.variable name (some ⟨.one, n⟩))
    | _, _ => none
  | _ => none

/-- Two operands folded into one variable, or else under their operator. -/
def foldBinary (op : Operator) (left right : Expr) : Expr :=
  (foldTerm? op left right).getD (.binary op left right)

mutual

/-- The tree with its monomials folded, from the leaves up. -/
def annotate : Expr → Expr
  | .number value => .number value
  | .variable name term => .variable name term
  | .signed sign operand => .signed sign operand.annotate
  | .binary op left right => foldBinary op left.annotate right.annotate
  | .vector items => .vector (annotateAll items)
  | .matrix columns => .matrix (annotateAll columns)
  | .definition name params body => .definition name params body.annotate
  | .call name args => .call name (annotateAll args)

/-- Some trees with their monomials folded. -/
def annotateAll : List Expr → List Expr
  | [] => []
  | e :: es => e.annotate :: annotateAll es

end

end Reckon.Expr
