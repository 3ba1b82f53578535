import Reckon.Proofs.Evaluation.Numbers
import Reckon.Proofs.Evaluation.Reaching
import Reckon.Proofs.Syntax.Names
import Reckon.Proofs.Syntax.Writing

/-!
# What symbolic texts say

The text of a symbolic value is put together from the texts of its parts, in parentheses, behind a
minus sign or as the arguments of a call. Each such text is read as an operand, and if the names it
mentions are bound later, the operand evaluates to what the value would have been. Numbers are
written in normal form, so they come back as the same numbers with other scales.
-/

namespace Reckon

open Grammar (Writes WritesWhole)

namespace Grammar.Writes

variable {depth : Nat} {text : String} {e : Expr} {called : Bool}

/-- Both ways to write a minus sign are read as the sign. -/
theorem negated (h : Writes depth 5 text e called) :
    ∃ deeper called', Writes deeper 5 (Value.symbolic text).negate.render (.signed .negative e)
      called' := by
  rw [Value.negate]
  split
  · exact ⟨_, _, h.minus⟩
  · have grouped := (h.whole (by omega) (Nat.le_refl 5)).parenthesized.minus
    refine ⟨depth + 1 + 1, false, ?_⟩
    have same : "-(" ++ text ++ ")" = "-" ++ ("(" ++ text ++ ")") := by
      rw [show "-(" = "-" ++ "(" from rfl]
      simp only [String.append_assoc]
    rw [Value.render, same]
    exact grouped

/-- Two operands and an operator in parentheses are read as the operation. -/
theorem combined {depth' : Nat} {other : String} {right : Expr} {called' : Bool} {op : Operator}
    (noAssign : op ≠ .assign) (before : Writes depth 5 text e called)
    (after : Writes depth' 5 other right called') :
    ∃ deeper, Writes deeper 5 ("(" ++ text ++ " " ++ op.symbol ++ " " ++ other ++ ")")
      (.binary op e right) false := by
  have bounds := op.precedence_bounds
  have between : ∀ {cs ks}, Token.Spells cs ks →
      Grammar.Tail ((" " ++ op.symbol ++ " ").toList ++ cs) (.operator op :: ks) := by
    intro cs ks spells
    have tail := Grammar.Tail.spaced op spells
    rw [String.toList_append, String.toList_append, List.append_assoc, List.append_assoc]
    exact tail
  have first := (before.mono (Nat.le_max_left depth depth')).loosen
    (show op.precedence ≤ 5 by omega) (Nat.le_refl 5)
  have second := (after.mono (Nat.le_max_right depth depth')).loosen
    (show op.precedence + 1 ≤ 5 by omega) (Nat.le_refl 5)
  have joined := Writes.joined rfl between (fun same => absurd same noAssign) first second
  refine ⟨max depth depth' + 1, ?_⟩
  have same : "(" ++ text ++ " " ++ op.symbol ++ " " ++ other ++ ")" =
      "(" ++ (text ++ (" " ++ op.symbol ++ " ") ++ other) ++ ")" := by
    simp only [String.append_assoc]
  rw [same]
  exact (joined.whole bounds.1 (by omega)).parenthesized

end Grammar.Writes

/-- The text is read as an operand. Under the assumption, if the value has become a number, the
operand evaluates to that number. -/
def Reads (assumption : Prop) (mode : AngleMode) (root : Scope) (text : String) (w : Value) :
    Prop :=
  ∃ depth e called, Writes depth 5 text e called ∧
    ∀ v, assumption → w = .number v → e.Reaches mode root e.height v

section Rules

variable {assumption : Prop} {mode : AngleMode} {root : Scope} {text : String} {w : Value}

/-! ## Numbers and names -/

/-- The text of a number is read as that number. -/
theorem reads_number (d : Decimal) : Reads assumption mode root d.render (.number d) := by
  refine ⟨1, _, _, Expr.writes_signedNumber d, fun v _ same => ?_⟩
  cases same
  exact Expr.reaches_signedNumber d

/-- A name stands for what it is bound to later. -/
theorem reads_name {name : String} (valid : Token.isIdentifier name = true)
    (bound : ∀ v, w = .number v → root.binding? name = some (.number v)) :
    Reads assumption mode root name w :=
  ⟨0, _, _, Grammar.writes_name 0 valid, fun v _ same => Expr.reaches_plain (bound v same) rfl⟩

/-! ## Signs and operators -/

/-- The text of a negated value is read as the negated value. -/
theorem Reads.negate (h : Reads assumption mode root text w) :
    Reads assumption mode root (Value.symbolic text).negate.render w.negate := by
  obtain ⟨depth, e, called, writes, reaches⟩ := h
  obtain ⟨deeper, called', negated⟩ := writes.negated
  refine ⟨deeper, _, called', negated, fun v assumed same => ?_⟩
  have signed : w.withSign .negative = .number v := same
  obtain ⟨c, rfl, rfl⟩ := Value.withSign_eq_number.1 signed
  exact (reaches c assumed rfl).signed rfl

/-- The text of a signed value is read as the signed value. -/
theorem Reads.withSign {sign : Sign} {u v : Value} (h : Reads assumption mode root u.render v)
    (symbolic : u.withSign sign = .symbolic text) :
    Reads assumption mode root text (v.withSign sign) := by
  cases u with
  | number d => cases sign <;> cases symbolic
  | symbolic inner =>
    cases sign with
    | positive =>
      cases symbolic
      exact h
    | negative =>
      have negated := h.negate
      rw [show (Value.symbolic inner).render = inner from rfl] at negated
      rw [show (Value.symbolic inner).negate = .symbolic text from symbolic] at negated
      exact negated

/-- Operands and an operator in parentheses are read as the operation. -/
theorem Reads.combine {op : Operator} {other : String} {l r : Value} (noAssign : op ≠ .assign)
    (before : Reads assumption mode root text l) (after : Reads assumption mode root other r)
    (power : assumption → op = .power → ∀ a b, l = .number a → r = .number b →
      Decimal.PowerByValue a b)
    (combined : l.combine op r = .ok w) :
    Reads assumption mode root ("(" ++ text ++ " " ++ op.symbol ++ " " ++ other ++ ")") w := by
  obtain ⟨depth, left, called, writes, reaches⟩ := before
  obtain ⟨depth', right, called', writes', reaches'⟩ := after
  obtain ⟨deeper, joined⟩ := writes.combined noAssign writes'
  refine ⟨deeper, .binary op left right, false, joined, fun v assumed number => ?_⟩
  rw [number] at combined
  obtain ⟨a, b, rfl, rfl, applied⟩ := Value.combine_eq_number.1 combined
  have first := (reaches a assumed rfl).mono (Nat.le_max_left left.height right.height)
  have second := (reaches' b assumed rfl).mono (Nat.le_max_right left.height right.height)
  exact first.binary second (fun isPower => power assumed isPower a b rfl rfl) applied

end Rules

/-! ## Calls of native functions -/

section Calls

variable {assumption : Prop} {mode : AngleMode} {root : Scope} {values values' : List Value}

/-- The texts of values are read as expressions, which evaluate one by one. -/
theorem exists_arguments
    (h : List.Forall₂ (fun w w' => Reads assumption mode root w.render w') values values') :
    ∃ depth args, List.Forall₂ (fun text e => WritesWhole depth text e)
        (values.map Value.render) args ∧
      ∀ numbers : List Decimal, assumption → values' = numbers.map .number →
        List.Forall₂ (fun arg d => Expr.Reaches mode root (Expr.heightAll args) arg d)
          args numbers := by
  induction h with
  | nil =>
    refine ⟨0, [], .nil, fun numbers _ same => ?_⟩
    obtain rfl : numbers = [] := List.map_eq_nil_iff.1 same.symm
    exact .nil
  | cons first others ih =>
    obtain ⟨depth, e, called, writes, reaches⟩ := first
    obtain ⟨depth', args, list, evaluate⟩ := ih
    have whole := (writes.mono (Nat.le_max_left depth depth')).whole (by omega) (Nat.le_refl 5)
    have deeper : depth' ≤ max depth depth' + 1 :=
      Nat.le_succ_of_le (Nat.le_max_right depth depth')
    refine ⟨max depth depth' + 1, e :: args, .cons whole (list.imp fun _ _ h => h.mono deeper), ?_⟩
    intro numbers assumed same
    cases numbers with
    | nil => cases same
    | cons d numbers =>
      rw [List.map_cons, List.cons.injEq] at same
      have value := (reaches d assumed same.1).mono (Nat.le_max_left e.height (Expr.heightAll args))
      have values := (evaluate numbers assumed same.2).imp fun _ _ reaches =>
        reaches.mono (Nat.le_max_right e.height (Expr.heightAll args))
      exact .cons value values

/-- The text of a native call is read as that call. -/
theorem reads_callNative {settings : Settings} {name : String} {native : Native} {w : Value}
    (valid : Token.isIdentifier name = true) (free : root.functions.get? name = none)
    (other : name ≠ Expr.integralName) (known : root.natives.get? name = some native)
    (args : List.Forall₂ (fun w w' => Reads assumption settings.angle root w.render w')
      values values')
    (byValue : assumption → ∀ numbers : List Decimal, values' = numbers.map .number →
      NativeByValue settings name native numbers)
    (called : Value.callNative settings name native values' = .ok w) :
    Reads assumption settings.angle root
      (name ++ "(" ++ commaSeparated (values.map Value.render) ++ ")") w := by
  obtain ⟨depth, es, list, evaluate⟩ := exists_arguments args
  refine ⟨depth, .call name es, true, (Grammar.writesArguments_of_forall₂ list).call valid, ?_⟩
  intro v assumed number
  subst number
  obtain ⟨numbers, rfl⟩ := Value.callNative_eq_number called
  exact Expr.reaches_native free other known (evaluate numbers assumed rfl)
    (byValue assumed numbers rfl) called

end Calls

end Reckon
