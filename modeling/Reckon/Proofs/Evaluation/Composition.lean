import Reckon.Proofs.Evaluation.Operands
import Reckon.Proofs.Evaluation.Scales
import Reckon.Proofs.Syntax.Concatenation

/-!
# Composed texts

An operator on text composes text: both operands with the operator between them, in parentheses.
The operands themselves get no parentheses. So the composed text is always accepted, but the
operator takes the whole of both texts only where these bind tightly enough; then the composed text
has the value of the operator on the values of the operands.
-/

namespace Reckon

/-- Evaluation of a tree that ends in a definition gives no value. -/
theorem Expr.endsInDefinition_eq_false {settings : Settings} {s : Scope} :
    ∀ {e : Expr} {levels : Nat} {w : Value}, e.evalWithin settings levels s = .ok w →
      e.endsInDefinition = false
  | .number _, _, _, _ => rfl
  | .variable _ _, _, _, _ => rfl
  | .vector _, _, _, _ => rfl
  | .matrix _, _, _, _ => rfl
  | .call _ _, _, _, _ => rfl
  | .definition _ _ _, _, _, value => absurd value evalWithin_definition_ne_ok
  | _, 0, _, value => absurd value evalWithin_zero_ne_ok
  | .signed _ _, _ + 1, _, value => by
    obtain ⟨_, operand, -⟩ := evalWithin_signed_eq_ok.1 value
    rw [endsInDefinition]
    exact endsInDefinition_eq_false operand
  | .binary _ _ _, _ + 1, _, value => by
    obtain ⟨_, _, -, onRight, -⟩ := evalWithin_binary_eq_ok.1 value
    rw [endsInDefinition]
    exact endsInDefinition_eq_false onRight

namespace Value

open Grammar (IsPhrase composedText)

/-- The value is a number, or text that the parser accepts under some limit. -/
def IsAccepted (w : Value) : Prop :=
  ∀ text, w = symbolic text → ∃ limit tree, Expr.parse limit text = .ok tree

/-- The text of the value binds at least as tightly as the operators of the level. -/
def BindsAt (level : Nat) (w : Value) : Prop :=
  ∃ e, IsPhrase level w.render e

variable {op : Operator} {l r w : Value}

/-- The text of a number is a phrase of the tightest level. -/
theorem isPhrase_number (d : Decimal) : IsPhrase 5 (number d).render (Expr.signedNumber d) :=
  (Expr.writes_signedNumber d).isPhrase

/-- Numbers are operands wherever they stand. -/
theorem bindsAt_number {level : Nat} (bound : level ≤ 5) (d : Decimal) :
    (number d).BindsAt level :=
  ⟨_, (isPhrase_number d).loosen bound (Nat.le_refl 5)⟩

/-- A number is accepted as a value. -/
theorem isAccepted_number (d : Decimal) : (number d).IsAccepted := nofun

/-- Text that parses is accepted as a value. -/
theorem isAccepted_of_parse {limit : Nat} {text : String} {tree : Expr}
    (h : Expr.parse limit text = .ok tree) : (symbolic text).IsAccepted := by
  intro _ same
  cases same
  exact ⟨limit, tree, h⟩

/-- The text of an accepted value is an expression. -/
theorem IsAccepted.exists_isPhrase (h : w.IsAccepted) : ∃ e, IsPhrase 1 w.render e := by
  cases w with
  | number d => exact ⟨_, (isPhrase_number d).loosen (by omega) (Nat.le_refl 5)⟩
  | symbolic text =>
    obtain ⟨limit, tree, parsed⟩ := h text rfl
    exact ⟨tree, Grammar.isPhrase_of_parse parsed⟩

/-- An operator with text on either side writes both values down, in parentheses. -/
theorem combine_eq_composedText (some : l.isNumeric = false ∨ r.isNumeric = false) :
    l.combine op r = .ok (symbolic (composedText op l.render r.render)) := by
  cases l with
  | symbolic text => exact combine_symbolic_left op text r
  | number a =>
    cases r with
    | symbolic text => exact combine_symbolic_right op (number a) text
    | number b => simp [isNumeric] at some

/-! ## Values of operands -/

/-- Where its names are bound to make a number of it, the text of the value evaluates to that
number, possibly with another scale if it was a number before. -/
theorem exists_evalWithin_of_bound {settings : Settings} {s : Scope} {a : Decimal} {level : Nat}
    {e : Expr} (phrase : IsPhrase level w.render e) (positive : 1 ≤ level) (small : level ≤ 5)
    (value : w.bound settings s = .ok (number a)) {limit : Nat}
    (deep : settings.maxDepth + 2 ≤ limit) :
    ∃ a', e.evalWithin (settings.withMaxDepth limit) limit s = .ok (number a') ∧ a.Equals a' ∧
      (w.isNumeric = false → a' = a) := by
  cases w with
  | number d =>
    cases value
    obtain ⟨enough, accepted⟩ := (isPhrase_number a).exists_parse (by omega) (Nat.le_refl 5)
    obtain rfl := phrase.eq_of_parse positive small (accepted enough (Nat.le_refl _))
    have low := Expr.height_signedNumber_le a
    obtain ⟨a', value, equal⟩ := Expr.reaches_signedNumber a _ _ rfl (by omega : _ ≤ limit)
    exact ⟨a', value, equal, nofun⟩
  | symbolic text =>
    rw [bound] at value
    split at value
    · cases value
    · next tree parsed =>
      obtain rfl := phrase.eq_of_parse positive small parsed
      have angle : (settings.withMaxDepth limit).angle = settings.angle := rfl
      exact ⟨a, Expr.evalWithin_of_le angle (by omega) value, rfl, fun _ => rfl⟩

/-! ## The value of a composed text -/

/-- With its names bound, the tree has the value of the operator on the values of the operands.
Powers of numbers that are written out are taken to depend on values only. -/
def Applies (op : Operator) (l r : Value) (tree : Expr) : Prop :=
  ∀ (settings : Settings) (s : Scope) (a b : Decimal),
    l.bound settings s = .ok (number a) → r.bound settings s = .ok (number b) →
    (op = .power → l.isNumeric = true ∨ r.isNumeric = true → b.isSmallInteger = false →
      Decimal.PowerRespects Decimal.Equals a b) →
    ∀ limit, settings.maxDepth + 2 ≤ limit →
      Matches Fault.SameKind Alike ((op.apply a b).map number)
        (tree.eval (settings.withMaxDepth limit) s)

/-- Numbers that are written out may change their scale; the others stay what they are. -/
theorem matches_combine {a a' b b' : Decimal} (atLeft : a.Equals a') (atRight : b.Equals b')
    (left : l.isNumeric = false → a' = a) (right : r.isNumeric = false → b' = b)
    (power : op = .power → l.isNumeric = true ∨ r.isNumeric = true → b.isSmallInteger = false →
      Decimal.PowerRespects Decimal.Equals a b) :
    Matches Fault.SameKind Alike ((number a).combine op (number b))
      ((number a').combine op (number b')) := by
  by_cases written : l.isNumeric = true ∨ r.isNumeric = true
  · refine relatesNumbers_equals.combine (.number atLeft) (.number atRight) ?_
    intro isPower base exponent sameBase sameExponent large
    cases sameBase
    cases sameExponent
    exact power isPower written large
  · rw [not_or, Bool.not_eq_true, Bool.not_eq_true] at written
    rw [left written.1, right written.2]
    have alike : ∀ v : Value, Alike v v := related_refl fun _ => rfl
    exact (lifts_matches _).refl Fault.sameKind_refl alike _

/-- The operator applies to the operands if the one on its left binds at least as tightly as the
operator, and the one on its right more tightly. -/
theorem applies_of_isPhrase (noAssign : op ≠ .assign) {left right tree : Expr}
    (before : IsPhrase op.precedence l.render left)
    (after : IsPhrase (op.precedence + 1) r.render right)
    (read : IsPhrase 5 (composedText op l.render r.render) tree) : Applies op l r tree := by
  intro settings s a b atLeft atRight power limit deep
  have bounds := op.precedence_bounds
  obtain ⟨a', valueLeft, equalLeft, sameLeft⟩ :=
    exists_evalWithin_of_bound before bounds.1 (by omega) atLeft deep
  obtain ⟨b', valueRight, equalRight, sameRight⟩ :=
    exists_evalWithin_of_bound after (by omega) (by omega) atRight deep
  have whole := Grammar.isPhrase_composedText noAssign before
    (Expr.endsInDefinition_eq_false valueLeft) after
  obtain ⟨enough, accepted⟩ := read.exists_parse (by omega) (Nat.le_refl 5)
  obtain rfl := whole.eq_of_parse (by omega) (Nat.le_refl 5) (accepted enough (Nat.le_refl _))
  have value : (Expr.binary op left right).eval (settings.withMaxDepth limit) s =
      (number a').combine op (number b') := by
    change Expr.evalWithin _ (limit + 1) s _ = _
    rw [Expr.evalWithin_binary, valueLeft, valueRight]
    rfl
  rw [value]
  exact matches_combine equalLeft equalRight sameLeft sameRight power

/-- What an operator other than a single equals sign composes of accepted texts is accepted. If both
operands bind tightly enough, the composed text has the value of the operator on their values, under
all bindings that make numbers of them. -/
theorem combine_composes (noAssign : op ≠ .assign)
    (some : l.isNumeric = false ∨ r.isNumeric = false) (hl : l.IsAccepted) (hr : r.IsAccepted) :
    ∃ text tree enough, l.combine op r = .ok (symbolic text) ∧
      (∀ limit, enough ≤ limit → Expr.parse limit text = .ok tree) ∧
      (l.BindsAt op.precedence → r.BindsAt (op.precedence + 1) → Applies op l r tree) := by
  obtain ⟨left, before⟩ := hl.exists_isPhrase
  obtain ⟨right, after⟩ := hr.exists_isPhrase
  obtain ⟨tree, read⟩ := Grammar.exists_isPhrase_composedText noAssign before after
  obtain ⟨enough, accepted⟩ := read.exists_parse (by omega) (Nat.le_refl 5)
  refine ⟨_, tree, enough, combine_eq_composedText some, accepted, ?_⟩
  rintro ⟨left, tightLeft⟩ ⟨right, tightRight⟩
  exact applies_of_isPhrase noAssign tightLeft tightRight read

/-- A product is divided by a number. -/
theorem combine_composes_quotient :
    let l := symbolic "a * b"
    let r := number .two
    Operator.divide ≠ .assign ∧ l.isNumeric = false ∧ l.IsAccepted ∧ r.IsAccepted ∧
      l.BindsAt Operator.divide.precedence ∧ r.BindsAt (Operator.divide.precedence + 1) ∧
      ∃ text tree enough, l.combine .divide r = .ok (symbolic text) ∧
        (∀ limit, enough ≤ limit → Expr.parse limit text = .ok tree) ∧
        Applies .divide l r tree := by
  intro l r
  have noAssign : Operator.divide ≠ .assign := by decide
  have product : Expr.parse 16 "a * b" = .ok (.binary .multiply (.plain "a") (.plain "b")) := by
    decide +kernel
  have accepted : l.IsAccepted ∧ r.IsAccepted := ⟨isAccepted_of_parse product, isAccepted_number .two⟩
  have factor : ∀ {name : String}, Token.isIdentifier name = true →
      Grammar.Writes 0 4 name (.plain name) false := fun valid =>
    (Grammar.writes_name 0 valid).loosen (by omega) (Nat.le_refl 5)
  have joined : Grammar.Writes 0 3 ("a" ++ " * " ++ "b")
      (.binary .multiply (.plain "a") (.plain "b")) false :=
    .joined rfl (fun h => .spaced .multiply h) (fun assign => absurd assign (by decide))
      ((factor (by decide)).loosen (by omega) (by omega)) (factor (by decide))
  have tight : l.BindsAt 3 ∧ r.BindsAt 4 := ⟨⟨_, joined.isPhrase⟩, bindsAt_number (by omega) .two⟩
  obtain ⟨text, tree, enough, composed, read, applies⟩ :=
    combine_composes noAssign (.inl rfl) accepted.1 accepted.2
  exact ⟨noAssign, rfl, accepted.1, accepted.2, tight.1, tight.2, text, tree, enough, composed,
    read, applies tight.1 tight.2⟩

/-- A difference is multiplied by a name: the product takes only what is subtracted. -/
theorem composed_text_may_regroup :
    let l := symbolic "a - b"
    let r := symbolic "c"
    l.IsAccepted ∧ r.IsAccepted ∧
      ¬∃ text tree enough, l.combine .multiply r = .ok (symbolic text) ∧
        (∀ limit, enough ≤ limit → Expr.parse limit text = .ok tree) ∧
        Applies .multiply l r tree := by
  intro l r
  have difference : Expr.parse 16 "a - b" =
      .ok (.binary .subtract (.plain "a") (.plain "b")) := by decide +kernel
  have name : Expr.parse 16 "c" = .ok (.plain "c") := by decide +kernel
  refine ⟨isAccepted_of_parse difference, isAccepted_of_parse name, ?_⟩
  rintro ⟨text, tree, enough, composed, read, applies⟩
  cases composed
  let regrouped : Expr :=
    .binary .subtract (.plain "a") (.binary .multiply (.plain "b") (.plain "c"))
  have parsed : Expr.parse 16 "(a - b * c)" = .ok regrouped := by decide +kernel
  have same := Grammar.parse_eq_ok_of_le parsed (Nat.le_max_right enough 16)
  obtain rfl : tree = regrouped :=
    Except.ok.inj ((read _ (Nat.le_max_left enough 16)).symm.trans same)
  let integer (negative : Bool) (mantissa : Nat) (small : mantissa < 2 ^ 96) : Decimal :=
    ⟨negative, mantissa, 0, small, by decide⟩
  let s : Scope := Scope.root.bindAll [("a", .number (integer false 7 (by decide))),
    ("b", .number (integer false 5 (by decide))), ("c", .number (integer false 3 (by decide)))]
  have values : l.bound { maxDepth := 16 } s = .ok (.number .two) ∧
      r.bound { maxDepth := 16 } s = .ok (.number (integer false 3 (by decide))) := by
    constructor <;> decide +kernel
  have noPower : Operator.multiply = .power → l.isNumeric = true ∨ r.isNumeric = true →
      Decimal.isSmallInteger (integer false 3 (by decide)) = false →
        Decimal.PowerRespects Decimal.Equals .two (integer false 3 (by decide)) :=
    fun power => absurd power (by decide)
  have outcome := applies { maxDepth := 16 } s _ _ values.1 values.2 noPower 18 (by decide)
  have product : (Operator.multiply.apply .two (integer false 3 (by decide))).map number =
      .ok (.number (integer false 6 (by decide))) := by decide +kernel
  have value : regrouped.eval (Settings.withMaxDepth { maxDepth := 16 } 18) s =
      .ok (.number (integer true 8 (by decide))) := by decide +kernel
  rw [product, value] at outcome
  cases outcome with
  | ok related =>
    cases related with
    | number equal => exact absurd (Decimal.same_iff.2 equal) (by decide)

end Value

end Reckon
