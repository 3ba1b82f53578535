import Reckon.Decimal.Text
import Reckon.Expr.Basic

/-!
# Printing expressions

`Expr.render` writes a tree with only the parentheses that the grammar needs; a unary plus is not
written. `Expr.outline` writes every level in prefix form, with all places of its decimals. A sign
binds more tightly than any operator, so a signed tree stands in parentheses below a power and a
binary tree below a sign.
-/

namespace Reckon

namespace Monomial

/-- The exponent of a monomial as it follows the name. -/
def exponentText (exponent : Decimal) : String :=
  if exponent.same .one then ""
  else if exponent.negative then "^(" ++ exponent.text ++ ")"
  else "^" ++ exponent.text

/-- The coefficient of a monomial as it precedes the name. A lone minus sign would bind more tightly
than the power, so -1 is written out below an exponent. -/
def coefficientText (coefficient exponent : Decimal) : String :=
  if coefficient.same .one then ""
  else if coefficient.same .negOne && exponent.same .one then "-"
  else coefficient.render

/-- The compact text of a monomial in the given name. -/
def render (term : Monomial) (name : String) : String :=
  let exponent := term.exponent.normalize
  if exponent.isZero then term.coefficient.render
  else coefficientText term.coefficient exponent ++ name ++ exponentText exponent

end Monomial

/-- Text in parentheses, if it needs them. -/
def parenthesized (needed : Bool) (text : String) : String :=
  if needed then "(" ++ text ++ ")" else text

/-- Texts with commas between them. -/
def commaSeparated (texts : List String) : String :=
  ", ".intercalate texts

namespace Expr

/-- Whether an operand stands in parentheses below an operator, on its right or left side. -/
def needsParens (parent : Operator) (right : Bool) : Expr → Bool
  | .binary op _ _ =>
    op.precedence < parent.precedence || (right && op.precedence == parent.precedence)
  | .signed _ _ => parent == .power && !right
  | .variable _ (some term) =>
    parent == .power || (right && parent == .divide && !term.coefficient.same .one)
  | .definition _ _ _ => true
  | _ => false

/-- Whether an operand stands in parentheses below a sign. -/
def needsParensBelowSign : Expr → Bool
  | .binary _ _ _ => true
  | .definition _ _ _ => true
  | _ => false

/-- How an operator stands between its operands. -/
def infixText : Operator → String
  | .power => "^"
  | op => " " ++ op.symbol ++ " "

mutual

/-- The text of a tree, with the parentheses that the grammar needs. -/
def render : Expr → String
  | .number value => value.render
  | .variable name none => name
  | .variable name (some term) => term.render name
  | .signed sign operand =>
    (if sign = .negative then "-" else "") ++
      parenthesized operand.needsParensBelowSign operand.render
  | .binary op left right =>
    parenthesized (left.needsParens op false) left.render ++ infixText op ++
      parenthesized (right.needsParens op true) right.render
  | .vector items => "[" ++ commaSeparated (renderAll items) ++ "]"
  | .matrix columns => String.join (renderAll columns)
  | .definition name params body =>
    name ++ "(" ++ commaSeparated params ++ ") = " ++ body.render
  | .call name args => name ++ "(" ++ commaSeparated (renderAll args) ++ ")"

/-- The texts of some trees. -/
def renderAll : List Expr → List String
  | [] => []
  | e :: es => e.render :: renderAll es

end

/-- A head and some texts in prefix form. -/
def prefixForm (head : String) (parts : List String) : String :=
  "(" ++ " ".intercalate (head :: parts) ++ ")"

mutual

/-- A tree in prefix form, level by level. -/
def outline : Expr → String
  | .number value => value.text
  | .variable name none => name
  | .variable name (some term) =>
    prefixForm "term" [name, term.coefficient.text, term.exponent.text]
  | .signed .negative operand => prefixForm "neg" [operand.outline]
  | .signed .positive operand => prefixForm "pos" [operand.outline]
  | .binary op left right => prefixForm op.symbol [left.outline, right.outline]
  | .vector items => prefixForm "vec" (outlineAll items)
  | .matrix columns => prefixForm "mat" (outlineAll columns)
  | .definition name params body =>
    prefixForm "def" [name, "(" ++ " ".intercalate params ++ ")", body.outline]
  | .call name args => prefixForm "call" (name :: outlineAll args)

/-- Some trees in prefix form. -/
def outlineAll : List Expr → List String
  | [] => []
  | e :: es => e.outline :: outlineAll es

end

/-- Printing some trees is printing each of them. -/
theorem renderAll_eq_map (es : List Expr) : renderAll es = es.map render := by
  induction es with
  | nil => rfl
  | cons e es ih => simp only [renderAll, List.map_cons, ih]

end Expr

end Reckon
