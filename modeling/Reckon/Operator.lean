/-!
# Signs and operators

The binary operators, their symbols and how tightly they bind. All four levels of binding are
associative to the left. A single equals sign compares like the double one.
-/

namespace Reckon

/-- A prefix sign. -/
inductive Sign where
  | positive
  | negative
deriving DecidableEq, Repr

/-- A binary operator. -/
inductive Operator where
  | add
  | subtract
  | multiply
  | divide
  | power
  | greater
  | less
  | greaterEqual
  | lessEqual
  | equal
  | notEqual
  | assign
deriving DecidableEq, Repr

namespace Operator

/-- How the operator is written. -/
def symbol : Operator → String
  | add => "+"
  | subtract => "-"
  | multiply => "*"
  | divide => "/"
  | power => "^"
  | greater => ">"
  | less => "<"
  | greaterEqual => ">="
  | lessEqual => "<="
  | equal => "=="
  | notEqual => "!="
  | assign => "="

/-- The operator that a symbol stands for. -/
def ofSymbol? (text : String) : Option Operator :=
  match text with
  | "+" => some add
  | "-" => some subtract
  | "*" => some multiply
  | "/" => some divide
  | "^" => some power
  | ">" => some greater
  | "<" => some less
  | ">=" => some greaterEqual
  | "<=" => some lessEqual
  | "==" => some equal
  | "!=" => some notEqual
  | "=" => some assign
  | _ => none

/-- How tightly the operator binds, from 1 for comparisons to 4 for powers. -/
def precedence : Operator → Nat
  | power => 4
  | multiply | divide => 3
  | add | subtract => 2
  | _ => 1

/-- Whether the operator compares its operands. -/
def isComparison (op : Operator) : Bool :=
  op.precedence == 1

/-- The symbol of an operator is read as that operator. -/
@[simp] theorem ofSymbol?_symbol (op : Operator) : ofSymbol? op.symbol = some op := by
  cases op <;> rfl

/-- The operators stand on four levels. -/
theorem precedence_bounds (op : Operator) : 1 ≤ op.precedence ∧ op.precedence ≤ 4 := by
  cases op <;> decide

end Operator

end Reckon
