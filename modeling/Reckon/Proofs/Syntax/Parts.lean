import Reckon.Expr.Basic

/-!
# Parts of trees

Whether a tree, or one of the trees that it is made of, has a property that can be tested.
-/

namespace Reckon.Expr

mutual

/-- Whether a test holds of a tree or of one of its parts. -/
def hasPart (test : Expr → Bool) : Expr → Bool
  | .number value => test (.number value)
  | .variable name term => test (.variable name term)
  | .signed sign operand => test (.signed sign operand) || operand.hasPart test
  | .binary op left right => test (.binary op left right) || left.hasPart test || right.hasPart test
  | .vector items => test (.vector items) || anyHasPart test items
  | .matrix columns => test (.matrix columns) || anyHasPart test columns
  | .definition name params body => test (.definition name params body) || body.hasPart test
  | .call name args => test (.call name args) || anyHasPart test args

/-- Whether a test holds of one of some trees or of one of their parts. -/
def anyHasPart (test : Expr → Bool) : List Expr → Bool
  | [] => false
  | e :: es => e.hasPart test || anyHasPart test es

end

variable {test : Expr → Bool}

/-- None of some trees has the part exactly when each of them has not. -/
theorem anyHasPart_eq_false_iff {es : List Expr} :
    anyHasPart test es = false ↔ ∀ e ∈ es, e.hasPart test = false := by
  induction es with
  | nil => simp [anyHasPart]
  | cons e es ih => simp [anyHasPart, ih]

/-- A tree is a part of itself. -/
theorem eq_false_of_hasPart_eq_false {e : Expr} (h : e.hasPart test = false) : test e = false := by
  cases e <;> simp_all [hasPart]

/-- Whether a tree is a call of a function with that name. -/
def isCallOf (name : String) : Expr → Bool
  | .call own _ => own == name
  | _ => false

/-- Whether a tree is a variable with that name that carries a monomial. -/
def isMonomialOf (name : String) : Expr → Bool
  | .variable own term => own == name && term.isSome
  | _ => false

end Reckon.Expr
