import Reckon.Proofs.Decimal.Exact
import Reckon.Proofs.Evaluation.Operands

/-!
# What values amount to

Once names are bound, a value amounts to a rational number. A value that was composed of others by
an operator amounts to something only if they do, and if nothing is rounded it amounts to what the
operator makes of their numbers. So from what a text amounts to one gets back to what it was made of.
-/

namespace Reckon

open Grammar (Writes)

/-- A text is read as one operand only. -/
theorem Grammar.Writes.unique {depth depth' : Nat} {text : String} {e e' : Expr}
    {called called' : Bool} (h : Writes depth 5 text e called)
    (h' : Writes depth' 5 text e' called') : e = e' := by
  have whole := h.whole (by omega) (Nat.le_refl 5)
  have parsed := whole.parse_eq_ok (Nat.le_max_left (depth + 1) e.height)
    (Nat.le_max_right (depth + 1) e.height)
  exact (h'.whole (by omega) (Nat.le_refl 5)).eq_of_parse parsed

/-! ## Operators that round nothing -/

/-- What an operator of arithmetic does to rational numbers. -/
def Operator.rational? : Operator → Option (ℚ → ℚ → ℚ)
  | .add => some (· + ·)
  | .subtract => some (· - ·)
  | .multiply => some (· * ·)
  | .divide => some (· / ·)
  | _ => none

/-- Whether arithmetic on two numbers is exact. There is nothing to round where it fails, and
operators outside of arithmetic are not asked about. -/
def Operator.isExact (op : Operator) (a b : Decimal) : Bool :=
  match op.rational?, op.apply a b with
  | some f, .ok d => d.toRat == f a.toRat b.toRat
  | _, _ => true

/-- Whether an operator on two values rounds nothing. With text on either side nothing is computed. -/
def Value.combinesExactly (op : Operator) : Value → Value → Bool
  | .number a, .number b => op.isExact a b
  | _, _ => true

/-- Whether evaluation of a tree rounds nothing outside of calls. -/
def Expr.roundsNothing (settings : Settings) (s : Scope) : (levels : Nat) → Expr → Bool
  | levels + 1, .signed _ operand => operand.roundsNothing settings s levels
  | levels + 1, .binary op left right =>
    left.roundsNothing settings s levels && right.roundsNothing settings s levels &&
      match left.evalWithin settings levels s, right.evalWithin settings levels s with
      | .ok l, .ok r => Value.combinesExactly op l r
      | _, _ => true
  | _, _ => true

namespace Value

/-- With the names bound the value is the number, and finding it rounds nothing. -/
def BecomesExactly (settings : Settings) (s : Scope) (w : Value) (q : ℚ) : Prop :=
  match w with
  | number d => d.toRat = q
  | symbolic text => ∃ (e : Expr) (d : Decimal), Expr.parse settings.maxDepth text = .ok e ∧
      e.eval settings s = .ok (.number d) ∧ d.toRat = q ∧
      e.roundsNothing settings s (settings.maxDepth + 1) = true

/-- The text of the value is read as an operand, which evaluates to the number and rounds nothing on
the way. -/
def AmountsTo (settings : Settings) (s : Scope) (w : Value) (q : ℚ) : Prop :=
  ∃ depth e called levels d, Writes depth 5 w.render e called ∧
    e.evalWithin settings levels s = .ok (.number d) ∧ d.toRat = q ∧
    e.roundsNothing settings s levels = true

variable {settings : Settings} {s : Scope} {w l r : Value} {p q : ℚ}

/-! ## Numbers -/

/-- A value amounts to one number only. -/
theorem AmountsTo.unique (h : w.AmountsTo settings s p) (h' : w.AmountsTo settings s q) :
    p = q := by
  obtain ⟨depth, e, called, levels, d, writes, value, rfl, -⟩ := h
  obtain ⟨depth', e', called', levels', d', writes', value', rfl, -⟩ := h'
  obtain rfl := writes.unique writes'
  have first := Expr.evalWithin_of_le rfl (Nat.le_max_left levels levels') value
  rw [Expr.evalWithin_of_le rfl (Nat.le_max_right levels levels') value'] at first
  cases first
  rfl

/-- A number amounts to its rational. -/
theorem amountsTo_number (d : Decimal) : (number d).AmountsTo settings s d.toRat := by
  obtain ⟨v, value, same⟩ := Expr.reaches_signedNumber d settings _ rfl
    (Nat.le_refl (Expr.signedNumber d).height)
  refine ⟨1, _, _, _, v, Expr.writes_signedNumber d, value, same, ?_⟩
  rw [Expr.signedNumber]
  split <;> rfl

/-- What is evaluated with the names bound amounts to its number. -/
theorem BecomesExactly.amountsTo (h : w.BecomesExactly settings s q) (operand : w.IsOperand) :
    w.AmountsTo settings s q := by
  cases w with
  | number d =>
    obtain rfl : d.toRat = q := h
    exact amountsTo_number d
  | symbolic text =>
    obtain ⟨e, d, parsed, value, same, exact⟩ := h
    obtain ⟨depth, tree, called, writes⟩ := operand
    obtain rfl := (writes.whole (by omega) (Nat.le_refl 5)).eq_of_parse parsed
    exact ⟨depth, _, called, _, d, writes, value, same, exact⟩

/-- A number becomes its rational exactly. -/
theorem becomesExactly_number {d : Decimal} (same : d.toRat = q) :
    (number d).BecomesExactly settings s q := same

/-- A name becomes exactly what it is bound to. -/
theorem becomesExactly_name {name : String} {d : Decimal} (valid : Token.isIdentifier name = true)
    (deep : 1 ≤ settings.maxDepth) (isBound : s.binding? name = some (number d))
    (same : d.toRat = q) : (symbolic name).BecomesExactly settings s q := by
  refine ⟨.plain name, d, parse_name valid deep, ?_, same, rfl⟩
  rw [Expr.eval, Expr.plain, Expr.evalWithin_variable]
  simp only [Scope.valueOf, isBound]

/-- What a number is, or what a name is bound to. -/
def plainAmount? (s : Scope) : Value → Option ℚ
  | number d => some d.toRat
  | symbolic name =>
    match Token.isIdentifier name, s.binding? name with
    | true, some (number d) => some d.toRat
    | _, _ => none

/-- A number, or a name that is bound to one, is evaluated and becomes its rational exactly. -/
theorem of_plainAmount?_eq_some (deep : 1 ≤ settings.maxDepth) (h : w.plainAmount? s = some q) :
    w.IsEvaluated ∧ w.BecomesExactly settings s q := by
  cases w with
  | number d => exact ⟨.number d, becomesExactly_number (Option.some.inj h)⟩
  | symbolic name =>
    rw [plainAmount?] at h
    split at h
    · next d valid isBound =>
      exact ⟨isEvaluated_name valid, becomesExactly_name valid deep isBound (Option.some.inj h)⟩
    · cases h

/-! ## Operands -/

/-- An operand whose negated value amounts to a number amounts to the negated number. -/
theorem AmountsTo.of_negate (h : w.negate.AmountsTo settings s q) (operand : w.IsOperand) :
    w.AmountsTo settings s (-q) := by
  cases w with
  | number d =>
    obtain rfl := h.unique (amountsTo_number d.neg)
    rw [Decimal.toRat_neg, neg_neg]
    exact amountsTo_number d
  | symbolic text =>
    obtain ⟨depth, e, called, levels, d, writes, value, rfl, exact⟩ := h
    obtain ⟨depth', inner, called', own⟩ := operand
    obtain ⟨_, _, negated⟩ := own.negated
    obtain rfl := negated.unique writes
    cases levels with
    | zero => exact absurd value Expr.evalWithin_zero_ne_ok
    | succ levels =>
      obtain ⟨v, below, signed⟩ := Expr.evalWithin_signed_eq_ok.1 value
      obtain ⟨c, rfl, rfl⟩ := withSign_eq_number.1 signed.symm
      refine ⟨depth', inner, called', levels, c, own, below, ?_, exact⟩
      rw [Decimal.toRat_neg, neg_neg]

/-- A quotient that exists has a divisor other than zero. -/
theorem toRat_ne_zero_of_divide {a b d : Decimal} (applied : Operator.divide.apply a b = .ok d) :
    b.toRat ≠ 0 := by
  intro zero
  rw [Operator.apply, if_pos (Decimal.isZero_of_toRat_eq_zero zero)] at applied
  cases applied

/-- What arithmetic was done to numbers, if nothing was rounded. -/
theorem exists_of_apply {op : Operator} {f : ℚ → ℚ → ℚ} {a b d : Decimal}
    (arithmetic : op.rational? = some f) (applied : op.apply a b = .ok d)
    (exact : op.isExact a b = true) :
    d.toRat = f a.toRat b.toRat ∧ (op = .divide → b.toRat ≠ 0) := by
  refine ⟨?_, fun divide => ?_⟩
  · rw [Operator.isExact, arithmetic, applied] at exact
    exact beq_iff_eq.1 exact
  · subst divide
    exact toRat_ne_zero_of_divide applied

/-- The operator makes the value of the two others and rounds nothing. -/
structure Composes (op : Operator) (l r w : Value) : Prop where
  combined : l.combine op r = .ok w
  exact : combinesExactly op l r = true

/-- A number was composed of numbers. -/
theorem Composes.exists_numbers {op : Operator} {f : ℚ → ℚ → ℚ} {d : Decimal}
    (composes : Composes op l r (.number d)) (arithmetic : op.rational? = some f) :
    ∃ a b : Decimal, l = .number a ∧ r = .number b ∧ d.toRat = f a.toRat b.toRat ∧
      (op = .divide → b.toRat ≠ 0) := by
  obtain ⟨combined, exact⟩ := composes
  obtain ⟨a, b, rfl, rfl, applied⟩ := combine_eq_number.1 combined
  exact ⟨a, b, rfl, rfl, exists_of_apply arithmetic applied exact⟩

/-- A value that was composed without rounding amounts to something only if its operands do, and then
to what the operator makes of their numbers. -/
theorem Composes.of_amountsTo {op : Operator} {f : ℚ → ℚ → ℚ} (composes : Composes op l r w)
    (arithmetic : op.rational? = some f) (hl : l.IsOperand) (hr : r.IsOperand)
    (h : w.AmountsTo settings s q) :
    ∃ p p', l.AmountsTo settings s p ∧ r.AmountsTo settings s p' ∧ q = f p p' ∧
      (op = .divide → p' ≠ 0) := by
  cases w with
  | number d =>
    obtain ⟨a, b, rfl, rfl, same, divisor⟩ := composes.exists_numbers arithmetic
    exact ⟨_, _, amountsTo_number a, amountsTo_number b,
      (h.unique (amountsTo_number d)).trans same, divisor⟩
  | symbolic text =>
    have noAssign : op ≠ .assign := by
      rintro rfl
      cases arithmetic
    obtain ⟨depth, e, called, levels, d, writes, value, rfl, exact⟩ := h
    obtain ⟨depthL, left, calledL, writesL⟩ := hl
    obtain ⟨depthR, right, calledR, writesR⟩ := hr
    obtain ⟨_, joined⟩ := writesL.combined noAssign writesR
    rw [← eq_of_combine_eq_symbolic composes.combined] at joined
    obtain rfl := joined.unique writes
    cases levels with
    | zero => exact absurd value Expr.evalWithin_zero_ne_ok
    | succ levels =>
      obtain ⟨u, v, valueL, valueR, number⟩ := Expr.evalWithin_binary_eq_ok.1 value
      obtain ⟨a, b, rfl, rfl, applied⟩ := combine_eq_number.1 number
      simp only [Expr.roundsNothing, valueL, valueR, Bool.and_eq_true] at exact
      obtain ⟨⟨exactL, exactR⟩, here⟩ := exact
      obtain ⟨same, divisor⟩ := exists_of_apply arithmetic applied here
      exact ⟨_, _, ⟨depthL, left, calledL, levels, a, writesL, valueL, rfl, exactL⟩,
        ⟨depthR, right, calledR, levels, b, writesR, valueR, rfl, exactR⟩, same, divisor⟩

/-- A quotient that was composed of numbers has a divisor other than zero. -/
theorem Composes.ne_zero {a b : Decimal} (composes : Composes .divide (.number a) (.number b) w) :
    b.toRat ≠ 0 := by
  obtain ⟨d, applied, -⟩ := combine_numbers_eq_ok.1 composes.combined
  exact toRat_ne_zero_of_divide applied

/-- What arithmetic composes of operands is an operand. -/
theorem Composes.isOperand {op : Operator} {f : ℚ → ℚ → ℚ} (composes : Composes op l r w)
    (arithmetic : op.rational? = some f) (hl : l.IsOperand) (hr : r.IsOperand) : w.IsOperand := by
  refine hl.combine op ?_ hr composes.combined
  rintro rfl
  cases arithmetic

end Value

end Reckon
