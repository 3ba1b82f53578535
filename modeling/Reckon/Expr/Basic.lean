import Reckon.Decimal.Basic
import Reckon.Operator

/-!
# Expressions

The tree of an algebraic text. A variable may carry a monomial: then it stands for the coefficient
times a power of the variable. A matrix is written as a run of bracketed vectors, one for each
column.
-/

namespace Reckon

/-- Coefficient and exponent of a power of a variable. -/
structure Monomial where
  /-- The factor in front of the power. -/
  coefficient : Decimal
  /-- The exponent, which may be any number. -/
  exponent : Decimal
deriving DecidableEq, Repr

/-- An expression tree. -/
inductive Expr where
  | number (value : Decimal)
  | variable (name : String) (term : Option Monomial)
  | signed (sign : Sign) (operand : Expr)
  | binary (operator : Operator) (left right : Expr)
  | vector (items : List Expr)
  | matrix (columns : List Expr)
  | definition (name : String) (params : List String) (body : Expr)
  | call (name : String) (args : List Expr)
deriving Inhabited

namespace Expr

/-- What kind of tree an expression is. -/
inductive Kind where
  | number
  | variable
  | signed
  | binary
  | vector
  | matrix
  | definition
  | call
deriving DecidableEq, Repr

/-- How messages name a kind of tree. -/
def Kind.text : Kind → String
  | .number => "number"
  | .variable => "variable"
  | .signed => "unary expression"
  | .binary => "binary expression"
  | .vector => "vector literal"
  | .matrix => "matrix literal"
  | .definition => "function definition"
  | .call => "function call"

/-- The kind of an expression. -/
def kind : Expr → Kind
  | .number _ => .number
  | .variable _ _ => .variable
  | .signed _ _ => .signed
  | .binary _ _ _ => .binary
  | .vector _ => .vector
  | .matrix _ => .matrix
  | .definition _ _ _ => .definition
  | .call _ _ => .call

/-- A variable without a monomial. -/
def plain (name : String) : Expr :=
  .variable name none

mutual

/-- The number of levels of a tree; a leaf has one. -/
def height : Expr → Nat
  | .number _ => 1
  | .variable _ _ => 1
  | .signed _ operand => operand.height + 1
  | .binary _ left right => max left.height right.height + 1
  | .vector items => heightAll items + 1
  | .matrix columns => heightAll columns + 1
  | .definition _ _ body => body.height + 1
  | .call _ args => heightAll args + 1

/-- The greatest number of levels among some trees. -/
def heightAll : List Expr → Nat
  | [] => 0
  | e :: es => max e.height (heightAll es)

end

mutual

/-- Whether a name occurs free in a tree. The parameters of a definition bind their names in its
body. -/
def mentions (name : String) : Expr → Bool
  | .number _ => false
  | .variable own _ => own == name
  | .signed _ operand => operand.mentions name
  | .binary _ left right => left.mentions name || right.mentions name
  | .vector items => mentionsAny name items
  | .matrix columns => mentionsAny name columns
  | .definition _ params body => !params.contains name && body.mentions name
  | .call _ args => mentionsAny name args

/-- Whether a name occurs free in one of some trees. -/
def mentionsAny (name : String) : List Expr → Bool
  | [] => false
  | e :: es => e.mentions name || mentionsAny name es

end

/-- Whether two variables carry the same monomial, numbers compared by value. -/
def sameTerm : Option Monomial → Option Monomial → Bool
  | none, none => true
  | some a, some b => a.coefficient.same b.coefficient && a.exponent.same b.exponent
  | _, _ => false

mutual

/-- Whether two trees are equal, numbers compared by value. -/
def same : Expr → Expr → Bool
  | .number a, .number b => a.same b
  | .variable n s, .variable m t => n == m && sameTerm s t
  | .signed s a, .signed t b => s == t && a.same b
  | .binary o a b, .binary p c d => o == p && a.same c && b.same d
  | .vector xs, .vector ys => sameAll xs ys
  | .matrix xs, .matrix ys => sameAll xs ys
  | .definition n ps a, .definition m qs b => n == m && ps == qs && a.same b
  | .call n xs, .call m ys => n == m && sameAll xs ys
  | _, _ => false

/-- Whether two lists of trees are equal, numbers compared by value. -/
def sameAll : List Expr → List Expr → Bool
  | [], [] => true
  | x :: xs, y :: ys => x.same y && sameAll xs ys
  | _, _ => false

end

mutual

/-- Whether two trees are identical, numbers with their scales. -/
def identical : Expr → Expr → Bool
  | .number a, .number b => a == b
  | .variable n s, .variable m t => n == m && s == t
  | .signed s a, .signed t b => s == t && a.identical b
  | .binary o a b, .binary p c d => o == p && a.identical c && b.identical d
  | .vector xs, .vector ys => identicalAll xs ys
  | .matrix xs, .matrix ys => identicalAll xs ys
  | .definition n ps a, .definition m qs b => n == m && ps == qs && a.identical b
  | .call n xs, .call m ys => n == m && identicalAll xs ys
  | _, _ => false

/-- Whether two lists of trees are identical, numbers with their scales. -/
def identicalAll : List Expr → List Expr → Bool
  | [], [] => true
  | x :: xs, y :: ys => x.identical y && identicalAll xs ys
  | _, _ => false

end

mutual

/-- Only equal trees are identical. -/
theorem identical_iff : ∀ a b : Expr, a.identical b = true ↔ a = b
  | .number a, b => by cases b <;> simp [identical]
  | .variable n s, b => by cases b <;> simp [identical]
  | .signed s a, b => by cases b <;> simp [identical, identical_iff a]
  | .binary o a b, c => by cases c <;> simp [identical, identical_iff a, identical_iff b, and_assoc]
  | .vector xs, b => by cases b <;> simp [identical, identicalAll_iff xs]
  | .matrix xs, b => by cases b <;> simp [identical, identicalAll_iff xs]
  | .definition n ps a, b => by cases b <;> simp [identical, identical_iff a, and_assoc]
  | .call n xs, b => by cases b <;> simp [identical, identicalAll_iff xs]

/-- Only equal lists of trees are identical. -/
theorem identicalAll_iff : ∀ xs ys : List Expr, identicalAll xs ys = true ↔ xs = ys
  | [], ys => by cases ys <;> simp [identicalAll]
  | x :: xs, ys => by cases ys <;> simp [identicalAll, identical_iff x, identicalAll_iff xs]

end

instance : DecidableEq Expr := fun a b => decidable_of_iff _ (identical_iff a b)

/-- Every tree has a level. -/
theorem height_pos (e : Expr) : 0 < e.height := by
  cases e <;> simp [height]

/-- A tree is no higher than a list that it stands in. -/
theorem height_le_heightAll {e : Expr} {es : List Expr} (h : e ∈ es) :
    e.height ≤ heightAll es := by
  induction es with
  | nil => cases h
  | cons a as ih =>
    simp only [heightAll]
    cases h with
    | head => exact Nat.le_max_left _ _
    | tail _ h => exact Nat.le_trans (ih h) (Nat.le_max_right _ _)

/-- Some trees mention a name exactly when one of them does. -/
theorem mentionsAny_iff {name : String} {es : List Expr} :
    mentionsAny name es = true ↔ ∃ e ∈ es, e.mentions name = true := by
  induction es with
  | nil => simp [mentionsAny]
  | cons a as ih => simp [mentionsAny, ih]

end Expr

end Reckon
