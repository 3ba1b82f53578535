import Reckon.Proofs.Calculus.Meaning
import Reckon.Proofs.Evaluation.Steps

/-!
# The formal derivative

The rules of differentiation applied to a tree, nothing simplified: the derivative of a part without
the variable is zero, and sums, differences, products, quotients, powers with a constant exponent and
signs have their rules. Wherever this derivative is defined, the tree that `derive` puts together is
defined and means the same, provided that no number changes its value on the way.
-/

namespace Reckon.Expr

/-! ## The rules -/

/-- The derivative of a power of a name with a coefficient. -/
def monomialRule (name : String) : Option Monomial → Expr
  | none => .number .one
  | some term =>
    .binary .multiply (.binary .multiply (.number term.coefficient) (.number term.exponent))
      (.binary .power (plain name) (.binary .subtract (.number term.exponent) (.number .one)))

/-- The derivative of an operation, given the derivatives of its operands. The exponent of a power
is constant here. -/
def operatorRule (op : Operator) (f g df dg : Expr) : Option Expr :=
  match op with
  | .add => some (.binary .add df dg)
  | .subtract => some (.binary .subtract df dg)
  | .multiply => some (.binary .add (.binary .multiply df g) (.binary .multiply f dg))
  | .divide =>
    some (.binary .divide (.binary .subtract (.binary .multiply df g) (.binary .multiply f dg))
      (.binary .power g (.number .two)))
  | .power =>
    some (.binary .multiply
      (.binary .multiply g (.binary .power f (.binary .subtract g (.number .one)))) df)
  | _ => none

/-- The derivative of a tree by the rules, as it comes. -/
def formalDerivative (v : String) (e : Expr) : Option Expr :=
  if e.mentions v then
    match e with
    | .variable name term => some (monomialRule name term)
    | .signed sign operand => (operand.formalDerivative v).map (.signed sign)
    | .binary op f g =>
      if op = .power && g.mentions v then none
      else
        (f.formalDerivative v).bind fun df => (g.formalDerivative v).bind fun dg =>
          operatorRule op f g df dg
    | _ => none
  else some zero

/-- Whether a power outside of calls has the variable in its exponent and not in its base. -/
def hasConstantBase (v : String) : Expr → Bool
  | .signed _ operand => operand.hasConstantBase v
  | .binary op left right =>
    (op = .power && !left.mentions v && right.mentions v) || left.hasConstantBase v ||
      right.hasConstantBase v
  | _ => false

/-- A tree without the variable has the formal derivative zero. -/
theorem formalDerivative_of_constant {v : String} {e : Expr} (free : e.mentions v = false) :
    e.formalDerivative v = some zero := by
  unfold formalDerivative
  exact if_neg (by rw [free]; exact Bool.false_ne_true)

/-- A variable with its factor and exponent is differentiated by the rule for monomials. -/
theorem formalDerivative_variable (v : String) (term : Option Monomial) :
    (Expr.variable v term).formalDerivative v = some (monomialRule v term) := by
  exact if_pos (beq_self_eq_true v)

/-- The formal derivative of a signed tree is the signed formal derivative of its operand. -/
theorem formalDerivative_signed {v : String} {sign : Sign} {operand t : Expr}
    (mentioned : (Expr.signed sign operand).mentions v = true)
    (h : operand.formalDerivative v = some t) :
    (Expr.signed sign operand).formalDerivative v = some (.signed sign t) := by
  rw [formalDerivative, if_pos mentioned, h, Option.map_some]

/-- The formal derivative of a binary tree follows the rule of its operator, where a power needs an
exponent without the variable. -/
theorem formalDerivative_binary {v : String} {op : Operator} {f g df dg : Expr}
    (mentioned : (Expr.binary op f g).mentions v = true)
    (constant : op = .power → g.mentions v = false) (hf : f.formalDerivative v = some df)
    (hg : g.formalDerivative v = some dg) :
    (Expr.binary op f g).formalDerivative v = operatorRule op f g df dg := by
  have noExponent : ¬(op = .power && g.mentions v) = true := by
    intro both
    rw [Bool.and_eq_true, decide_eq_true_eq] at both
    rw [constant both.1] at both
    exact Bool.false_ne_true both.2
  rw [formalDerivative, if_pos mentioned, if_neg noExponent, hf, hg, Option.bind_some,
    Option.bind_some]

/-! ## Derivatives of constants -/

/-- The tree is a number that is zero. -/
def IsZeroNumber (e : Expr) : Prop :=
  ∃ z, e = .number z ∧ z.isZero = true

/-- The tree of zero is a number that is zero. -/
theorem isZeroNumber_zero : IsZeroNumber zero :=
  ⟨.zero, rfl, rfl⟩

/-- A decimal that is zero makes the number tree that stands for zero, whatever its scale. -/
theorem isNumber_zero_of_isZero {z : Decimal} (h : z.isZero = true) :
    (Expr.number z).isNumber .zero = true := by
  have same : z.toRat = Decimal.zero.toRat := by
    rw [Decimal.toRat_of_isZero h, Decimal.toRat_zero]
  exact Decimal.same_iff.2 same

/-- Zero stays zero when its sign is turned and its trailing zeros are dropped. -/
theorem isZero_normalize_neg {z : Decimal} (h : z.isZero = true) :
    z.neg.normalize.isZero = true := by
  have mantissa : z.neg.mantissa = 0 := beq_iff_eq.1 h
  have trimmed : z.neg.normalize.mantissa ≤ z.neg.mantissa := Decimal.trimZeros_fst_le _ _
  rw [Decimal.isZero, beq_iff_eq]
  omega

/-- The negated zero is zero. -/
theorem IsZeroNumber.negated {e : Expr} (h : IsZeroNumber e) : IsZeroNumber e.negated := by
  obtain ⟨z, rfl, zero⟩ := h
  exact ⟨z.neg.normalize, rfl, isZero_normalize_neg zero⟩

/-- Zero plus zero is zero. -/
theorem IsZeroNumber.plus {a b : Expr} (ha : IsZeroNumber a) (hb : IsZeroNumber b) :
    IsZeroNumber (plus a b) := by
  obtain ⟨x, rfl, zero⟩ := ha
  obtain ⟨y, rfl, zero'⟩ := hb
  rw [Expr.plus, number?, number?]
  dsimp only
  rw [if_pos zero]
  exact ⟨y, rfl, zero'⟩

/-- Zero minus zero is zero. -/
theorem IsZeroNumber.minus {a b : Expr} (ha : IsZeroNumber a) (hb : IsZeroNumber b) :
    IsZeroNumber (minus a b) := by
  obtain ⟨x, rfl, zero⟩ := ha
  obtain ⟨y, rfl, zero'⟩ := hb
  rw [Expr.minus, number?, number?]
  dsimp only
  rw [if_pos zero']
  exact ⟨x, rfl, zero⟩

/-- A factor of zero leaves the tree of zero. -/
theorem scaled_of_isZero {c : Decimal} (h : c.isZero = true) (e : Expr) : scaled c e = zero := by
  unfold scaled
  rw [if_pos (by rw [h, Bool.true_or])]

/-- A zero that is scaled is zero. -/
theorem IsZeroNumber.scaled {e : Expr} (h : IsZeroNumber e) (c : Decimal) :
    Expr.scaled c e = zero := by
  obtain ⟨z, rfl, isZero⟩ := h
  unfold Expr.scaled
  rw [if_pos (by rw [isNumber_zero_of_isZero isZero, Bool.or_true])]

/-- A product with zero on the left is zero. -/
theorem IsZeroNumber.times_left {a : Expr} (h : IsZeroNumber a) (b : Expr) : times a b = zero := by
  obtain ⟨z, rfl, isZero⟩ := h
  exact scaled_of_isZero isZero b

/-- A product with zero on the right is zero. -/
theorem IsZeroNumber.times_right {b : Expr} (h : IsZeroNumber b) (a : Expr) : times a b = zero := by
  rw [times]
  split
  · exact h.scaled _
  · next y _ hy =>
    obtain ⟨z, rfl, isZero⟩ := h
    cases hy
    exact scaled_of_isZero isZero a
  · next hy =>
    obtain ⟨z, rfl, isZero⟩ := h
    cases hy

/-- Zero divided by any tree is zero. -/
theorem IsZeroNumber.dividedBy {a : Expr} (h : IsZeroNumber a) (b : Expr) :
    Expr.dividedBy a b = zero := by
  obtain ⟨z, rfl, isZero⟩ := h
  rw [Expr.dividedBy, if_pos (isNumber_zero_of_isZero isZero)]

namespace Setting

variable {s : Setting} {d : Expr} {depth : Nat} {belowMinus : Bool}

/-! ## Steps of differentiation -/

/-- An exponent less one. -/
def lowered : Expr → Except Fault Expr
  | .number n => (lessOne n).map ofNumber
  | other => .ok (minus other (ofNumber .one))

/-- The power rule folds the exponent, lowers it, folds the base, and multiplies the exponent with
the power that is left. -/
theorem powerRule_eq (s : Setting) (base exponent : Expr) :
    s.powerRule base exponent = s.fold exponent >>= fun n => lowered n >>= fun m =>
      s.fold base >>= fun b => .ok (times n (toThe b m)) := by
  rw [powerRule]
  cases s.fold exponent with
  | error fault => rfl
  | ok n => cases n <;> rfl

/-- A power rule that succeeds has folded the exponent and the base, and its derivative is the
exponent times the lowered power. -/
theorem powerRule_eq_ok {base exponent : Expr} (h : s.powerRule base exponent = .ok d) :
    ∃ n m b, s.fold exponent = .ok n ∧ lowered n = .ok m ∧ s.fold base = .ok b ∧
      d = times n (toThe b m) := by
  rw [powerRule_eq] at h
  obtain ⟨n, keptExponent, h⟩ := bind_eq_ok.1 h
  obtain ⟨m, less, h⟩ := bind_eq_ok.1 h
  obtain ⟨b, keptBase, h⟩ := bind_eq_ok.1 h
  exact ⟨n, m, b, keptExponent, less, keptBase, (Except.ok.inj h).symm⟩

/-- A rule for exponentials that succeeds has folded the base, its logarithm and the exponent. -/
theorem exponentialRule_eq_ok {base exponent : Expr} (h : s.exponentialRule base exponent = .ok d) :
    ∃ b l n, s.fold base = .ok b ∧ s.fold (.call "ln" [b]) = .ok l ∧ s.fold exponent = .ok n ∧
      d = times (toThe b n) l := by
  obtain ⟨b, keptBase, h⟩ := bind_eq_ok.1 h
  obtain ⟨l, logarithm, h⟩ := bind_eq_ok.1 h
  obtain ⟨n, keptExponent, h⟩ := bind_eq_ok.1 h
  exact ⟨b, l, n, keptBase, logarithm, keptExponent, (Except.ok.inj h).symm⟩

/-- What the derivative of an operation is made of. A quotient by a constant divides the derivative,
any other one has the whole rule; a power is constant, or its base or its exponent is. -/
def OperatorStep (s : Setting) (depth : Nat) (left right d : Expr) : Operator → Prop
  | .add => ∃ df dg, s.derive false (depth + 1) left = .ok df ∧
      s.derive false (depth + 1) right = .ok dg ∧ d = plus df dg
  | .subtract => ∃ df dg, s.derive false (depth + 1) left = .ok df ∧
      s.derive false (depth + 1) right = .ok dg ∧ d = minus df dg
  | .multiply => ∃ f g df dg, s.fold left = .ok f ∧ s.fold right = .ok g ∧
      s.derive false (depth + 1) left = .ok df ∧ s.derive false (depth + 1) right = .ok dg ∧
      d = plus (times df g) (times f dg)
  | .divide => ∃ f g df, s.fold left = .ok f ∧ s.fold right = .ok g ∧
      s.derive false (depth + 1) left = .ok df ∧
      ((right.mentions s.variableName = false ∧ d = dividedBy df g) ∨
        right.mentions s.variableName = true ∧ ∃ dg, s.derive false (depth + 1) right = .ok dg ∧
          d = dividedBy (minus (times df g) (times f dg)) (toThe g (ofNumber .two)))
  | .power =>
      (left.mentions s.variableName = false ∧ right.mentions s.variableName = false ∧ d = zero) ∨
      (right.mentions s.variableName = false ∧ ∃ n m b df, s.fold right = .ok n ∧
        lowered n = .ok m ∧ s.fold left = .ok b ∧ s.derive false (depth + 1) left = .ok df ∧
        d = times (times n (toThe b m)) df) ∨
      left.mentions s.variableName = false ∧ right.mentions s.variableName = true ∧
        ∃ b l n dg, s.fold left = .ok b ∧ s.fold (.call "ln" [b]) = .ok l ∧ s.fold right = .ok n ∧
        s.derive false (depth + 1) right = .ok dg ∧ d = times (times (toThe b n) l) dg
  | _ => False

/-- What the derivative of a tree is made of. -/
def Step (s : Setting) (belowMinus : Bool) (depth : Nat) (d : Expr) : Expr → Prop
  | .number _ => d = zero
  | .variable name term => s.deriveVariable belowMinus name term = .ok d
  | .signed sign operand => ∃ inner,
      s.derive (Expr.signed sign operand).isNegatedVariable (depth + 1) operand = .ok inner ∧
        d = if sign = .positive || (Expr.signed sign operand).isNegatedVariable then inner
          else inner.negated
  | .binary op left right => s.OperatorStep depth left right d op
  | .call name args => (Expr.call name args).mentions s.variableName = false ∧ d = zero
  | .vector _ | .matrix _ | .definition _ _ _ => False

/-- All that differentiation does with a tree, apart from the limit for the depth. -/
theorem step_of_derive {e : Expr} (h : s.derive belowMinus depth e = .ok d) :
    s.Step belowMinus depth d e := by
  unfold derive at h
  split at h
  · cases h
  cases e with
  | number value => exact (Except.ok.inj h).symm
  | «variable» name term => exact h
  | signed sign operand =>
    obtain ⟨inner, derived, result⟩ := bind_eq_ok.1 h
    refine ⟨inner, derived, ?_⟩
    split at result
    · next kept => rw [if_pos kept, Except.ok.inj result]
    · next turned => rw [if_neg turned, Except.ok.inj result]
  | binary op left right =>
    cases op with
    | add =>
      obtain ⟨df, first, h⟩ := bind_eq_ok.1 h
      obtain ⟨dg, second, h⟩ := bind_eq_ok.1 h
      exact ⟨df, dg, first, second, (Except.ok.inj h).symm⟩
    | subtract =>
      obtain ⟨df, first, h⟩ := bind_eq_ok.1 h
      obtain ⟨dg, second, h⟩ := bind_eq_ok.1 h
      exact ⟨df, dg, first, second, (Except.ok.inj h).symm⟩
    | multiply =>
      obtain ⟨f, keptLeft, h⟩ := bind_eq_ok.1 h
      obtain ⟨g, keptRight, h⟩ := bind_eq_ok.1 h
      obtain ⟨df, first, h⟩ := bind_eq_ok.1 h
      obtain ⟨dg, second, h⟩ := bind_eq_ok.1 h
      exact ⟨f, g, df, dg, keptLeft, keptRight, first, second, (Except.ok.inj h).symm⟩
    | divide =>
      obtain ⟨f, keptLeft, h⟩ := bind_eq_ok.1 h
      obtain ⟨g, keptRight, h⟩ := bind_eq_ok.1 h
      obtain ⟨df, first, h⟩ := bind_eq_ok.1 h
      refine ⟨f, g, df, keptLeft, keptRight, first, ?_⟩
      cases mentioned : right.mentions s.variableName with
      | false =>
        rw [mentioned] at h
        exact .inl ⟨rfl, (Except.ok.inj h).symm⟩
      | true =>
        rw [mentioned] at h
        obtain ⟨dg, second, h⟩ := bind_eq_ok.1 h
        exact .inr ⟨rfl, dg, second, (Except.ok.inj h).symm⟩
    | power =>
      dsimp only at h
      split at h
      · next constant constant' => exact .inl ⟨constant, constant', (Except.ok.inj h).symm⟩
      · next constant =>
        obtain ⟨outer, rule, h⟩ := bind_eq_ok.1 h
        obtain ⟨df, inner, h⟩ := bind_eq_ok.1 h
        obtain ⟨n, m, b, keptExponent, less, keptBase, rfl⟩ := powerRule_eq_ok rule
        exact .inr (.inl ⟨constant, n, m, b, df, keptExponent, less, keptBase, inner,
          (Except.ok.inj h).symm⟩)
      · next constant varies =>
        obtain ⟨outer, rule, h⟩ := bind_eq_ok.1 h
        obtain ⟨dg, inner, h⟩ := bind_eq_ok.1 h
        obtain ⟨b, l, n, keptBase, logarithm, keptExponent, rfl⟩ := exponentialRule_eq_ok rule
        exact .inr (.inr ⟨constant, varies, b, l, n, dg, keptBase, logarithm, keptExponent, inner,
          (Except.ok.inj h).symm⟩)
      · cases h
    | _ => cases h
  | call name args =>
    dsimp only at h
    split at h
    · cases h
    · next free => exact ⟨Bool.eq_false_iff.2 free, (Except.ok.inj h).symm⟩
  | vector items => cases h
  | matrix columns => cases h
  | definition name params body => cases h

/-- The derivative of a leaf, or of a tree that is neither a sign nor an operation. -/
theorem derive_leaf {e : Expr} (noSign : ∀ sign operand, e ≠ .signed sign operand)
    (noOperator : ∀ op left right, e ≠ .binary op left right)
    (h : s.derive belowMinus depth e = .ok d) :
    (e.mentions s.variableName = false ∧ d = zero) ∨
      ∃ term, e = .variable s.variableName term ∧
        s.deriveVariable belowMinus s.variableName term = .ok d := by
  have step := step_of_derive h
  cases e with
  | number value => exact .inl ⟨rfl, step⟩
  | «variable» name term =>
    by_cases same : name = s.variableName
    · subst same
      exact .inr ⟨term, rfl, step⟩
    · have free : (Expr.variable name term).mentions s.variableName = false := by
        rw [mentions]
        exact beq_eq_false_iff_ne.2 same
      have other : s.deriveVariable belowMinus name term = .ok zero := by
        cases term <;> exact if_pos same
      exact .inl ⟨free, Except.ok.inj (step.symm.trans other)⟩
  | signed sign operand => exact absurd rfl (noSign sign operand)
  | binary op left right => exact absurd rfl (noOperator op left right)
  | call name args => exact .inl step
  | vector items => exact step.elim
  | matrix columns => exact step.elim
  | definition name params body => exact step.elim

/-! ## Derivatives of constants -/

/-- A binary tree is free of a variable exactly when both operands are. -/
theorem mentions_binary_eq_false {v : String} {op : Operator} {left right : Expr} :
    (Expr.binary op left right).mentions v = false ↔
      left.mentions v = false ∧ right.mentions v = false := by
  rw [mentions, Bool.or_eq_false_iff]

/-- A part without the variable has the derivative zero, written as a number. -/
theorem isZeroNumber_of_derive {e : Expr} (free : e.mentions s.variableName = false)
    (h : s.derive belowMinus depth e = .ok d) : IsZeroNumber d := by
  induction e using hasConstantBase.induct generalizing belowMinus depth d with
  | case1 sign operand ih =>
    obtain ⟨inner, derived, rfl⟩ := step_of_derive h
    have zero := ih (by rwa [mentions] at free) derived
    split
    · exact zero
    · exact zero.negated
  | case2 op left right ih ih' =>
    obtain ⟨freeLeft, freeRight⟩ := mentions_binary_eq_false.1 free
    cases op with
    | add =>
      obtain ⟨df, dg, first, second, rfl⟩ := step_of_derive h
      exact (ih freeLeft first).plus (ih' freeRight second)
    | subtract =>
      obtain ⟨df, dg, first, second, rfl⟩ := step_of_derive h
      exact (ih freeLeft first).minus (ih' freeRight second)
    | multiply =>
      obtain ⟨f, g, df, dg, _, _, first, second, rfl⟩ := step_of_derive h
      rw [(ih freeLeft first).times_left, (ih' freeRight second).times_right]
      exact isZeroNumber_zero.plus isZeroNumber_zero
    | divide =>
      obtain ⟨f, g, df, _, _, first, constant | varies⟩ := step_of_derive h
      · rw [constant.2, (ih freeLeft first).dividedBy]
        exact isZeroNumber_zero
      · rw [freeRight] at varies
        exact absurd varies.1 Bool.false_ne_true
    | power =>
      rcases step_of_derive h with ⟨_, _, rfl⟩ | ⟨_, n, m, b, df, _, _, _, inner, rfl⟩ |
        ⟨_, varies, _⟩
      · exact isZeroNumber_zero
      · rw [(ih freeLeft inner).times_right]
        exact isZeroNumber_zero
      · rw [freeRight] at varies
        exact absurd varies Bool.false_ne_true
    | _ => exact (step_of_derive h).elim
  | case3 e noSign noOperator =>
    rcases derive_leaf noSign noOperator h with ⟨_, rfl⟩ | ⟨term, rfl, _⟩
    · exact isZeroNumber_zero
    · rw [mentions, beq_self_eq_true] at free
      cases free

/-! ## Runs that change no number -/

variable (s : Setting) (calls : CallMeaning)

/-- The assignment gives the names that are bound their numbers. -/
def Allows (ρ : Assignment) : Prop :=
  ∀ name value, s.scope.binding? name = some (.number value) → ρ name = value.toReal

/-- If the part becomes a number, then it is the number that the part stands for. -/
def FoldsExactly (e : Expr) : Prop :=
  ∀ value, s.fold e = .ok (.number value) → ∀ ρ, s.Allows ρ → ∀ q, e.meaning calls ρ = some q →
    q = value.toReal

/-- One less is not rounded. For an integer it never is. -/
def LowersExactly (n : Decimal) : Prop :=
  n.isInteger = false → n.SubtractsExactly .one

/-- The number that an exponent has been folded into can be lowered exactly. -/
def PowerLowersExactly : Expr → Prop
  | .number n => LowersExactly n
  | _ => True

/-- Putting the derivative of an operation together from those of its operands is exact, and so is
folding the operands that are kept. -/
def CombinesExactly (depth : Nat) (left right : Expr) : Operator → Prop
  | .add => ∀ df dg, s.derive false (depth + 1) left = .ok df →
      s.derive false (depth + 1) right = .ok dg → PlusIsExact df dg
  | .subtract => ∀ df dg, s.derive false (depth + 1) left = .ok df →
      s.derive false (depth + 1) right = .ok dg → MinusIsExact df dg
  | .multiply => s.FoldsExactly calls left ∧ s.FoldsExactly calls right ∧
      ∀ f g df dg, s.fold left = .ok f → s.fold right = .ok g →
        s.derive false (depth + 1) left = .ok df → s.derive false (depth + 1) right = .ok dg →
        TimesIsExact df g ∧ TimesIsExact f dg ∧ PlusIsExact (times df g) (times f dg)
  | .divide => s.FoldsExactly calls left ∧ s.FoldsExactly calls right ∧
      ∀ f g df, s.fold left = .ok f → s.fold right = .ok g →
        s.derive false (depth + 1) left = .ok df →
        (right.mentions s.variableName = false → DividedByIsExact df g) ∧
          (right.mentions s.variableName = true → ∀ dg, s.derive false (depth + 1) right = .ok dg →
            TimesIsExact df g ∧ TimesIsExact f dg ∧ MinusIsExact (times df g) (times f dg) ∧
              DividedByIsExact (minus (times df g) (times f dg)) (toThe g (ofNumber .two)))
  | .power => s.FoldsExactly calls left ∧ s.FoldsExactly calls right ∧
      ∀ n m b df, s.fold right = .ok n → lowered n = .ok m → s.fold left = .ok b →
        s.derive false (depth + 1) left = .ok df →
        PowerLowersExactly n ∧ TimesIsExact n (toThe b m) ∧ TimesIsExact (times n (toThe b m)) df
  | _ => True

/-- In the parts that depend on the variable, every step of differentiation is exact. -/
def DerivesExactly (depth : Nat) : Expr → Prop
  | .signed _ operand => DerivesExactly (depth + 1) operand
  | .binary op left right => (Expr.binary op left right).mentions s.variableName = true →
      DerivesExactly (depth + 1) left ∧ DerivesExactly (depth + 1) right ∧
        s.CombinesExactly calls depth left right op
  | _ => True

/-- Wherever the first tree is defined, the second one means the same. -/
def Refines (t d : Expr) : Prop :=
  ∀ ρ, s.Allows ρ → ∀ q, t.meaning calls ρ = some q → d.meaning calls ρ = some q

end Setting

/-- A monomial in the variable has room for the product of its coefficient and its exponent, and for
its exponent less one, without rounding. -/
def MonomialsStepDownExactly (v : String) : Expr → Prop
  | .variable name (some term) => name = v →
      term.coefficient.MultipliesExactly term.exponent ∧ Setting.LowersExactly term.exponent
  | .signed _ operand => operand.MonomialsStepDownExactly v
  | .binary _ left right => left.MonomialsStepDownExactly v ∧ right.MonomialsStepDownExactly v
  | _ => True

namespace Setting

variable {s : Setting} {calls : CallMeaning} {e d f n m : Expr} {depth : Nat}

/-! ## Every step keeps the meaning -/

/-- A derivative that is the number zero refines the formal derivative zero. -/
theorem refines_zero (h : IsZeroNumber d) : s.Refines calls zero d := by
  intro ρ _ q value
  obtain ⟨z, rfl, isZero⟩ := h
  rw [meaning_zero] at value
  rw [meaning_number, Decimal.toReal_of_isZero isZero, value]

/-- A kept part means the same after folding. -/
theorem refines_fold (folds : s.fold e = .ok f) (exact : s.FoldsExactly calls e) :
    s.Refines calls e f := by
  intro ρ allowed q value
  have result := folds
  unfold fold at result
  split at result
  · cases result
  · split at result
    · cases result
      rw [meaning_number, exact _ folds ρ allowed q value]
    · cases result
      exact value

/-- An exponent that is lowered exactly stands for one less. -/
theorem toReal_lessOne {x y : Decimal} (h : lessOne x = .ok y) (exact : LowersExactly x) :
    y.toReal = x.toReal - 1 := by
  have exact : x.SubtractsExactly .one := by
    cases integer : x.isInteger with
    | true => exact Decimal.subtractsExactly_one integer
    | false => exact exact integer
  unfold lessOne at h
  split at h
  · next lower difference =>
    cases h
    rw [exact.toReal difference, Decimal.toReal_one]
  · cases h

/-- A lowered exponent means one less. -/
theorem meaning_lowered (h : lowered n = .ok m) (exact : PowerLowersExactly n) {ρ : Assignment}
    {q : ℝ} (value : n.meaning calls ρ = some q) : m.meaning calls ρ = some (q - 1) := by
  unfold lowered at h
  split at h
  · next x =>
    cases less : lessOne x with
    | error fault =>
      rw [less] at h
      cases h
    | ok y =>
      rw [less] at h
      cases h
      rw [meaning_number] at value
      rw [meaning_ofNumber, toReal_lessOne less exact, Option.some.inj value]
  · next noNumber =>
    cases h
    have none : ∀ x, n.number? ≠ some x := by
      intro x isNumber
      cases n with
      | number y => exact noNumber y rfl
      | _ => cases isNumber
    have exact : MinusIsExact n (ofNumber .one) := fun x isNumber => absurd isNumber (none x)
    rw [meaning_minus exact value (meaning_ofNumber .one), Decimal.toReal_one]

/-- Scaling a power of a variable is exact, since it is no number that the factor could be folded
with. -/
theorem scaledIsExact_power (c : Decimal) (name : String) (exponent : Decimal) :
    ScaledIsExact c (toThe (plain name) (ofNumber exponent)) := by
  unfold toThe
  split
  · intro needed
    have one : (Expr.number Decimal.one.normalize).isNumber .one = true := by decide
    rw [needsProduct, one, Bool.and_eq_true] at needed
    exact absurd needed.2 Bool.false_ne_true
  · split <;> trivial

/-- The derivative of the variable follows the rule for monomials. -/
theorem refines_deriveVariable {term : Option Monomial}
    (h : s.deriveVariable false s.variableName term = .ok d)
    (exact : (Expr.variable s.variableName term).MonomialsStepDownExactly s.variableName) :
    s.Refines calls (monomialRule s.variableName term) d := by
  intro ρ _ q value
  cases term with
  | none =>
    rw [deriveVariable, if_neg (not_not.2 rfl)] at h
    rw [monomialRule, meaning_number] at value
    rw [← Except.ok.inj h, if_neg Bool.false_ne_true, meaning_ofNumber, value]
  | some term =>
    obtain ⟨product, lowers⟩ := exact rfl
    obtain ⟨cn, x, factors, power, operated⟩ := meaning_binary_eq_some.1 value
    obtain ⟨c, n, isC, isN, multiplied⟩ := meaning_binary_eq_some.1 factors
    obtain ⟨base, m, isBase, isM, isPower⟩ := meaning_binary_eq_some.1 power
    rw [meaning_number] at isC isN
    have lower := meaning_binary_eq_some.1 isM
    obtain ⟨n', one, isN', isOne, difference⟩ := lower
    rw [meaning_number] at isN' isOne
    cases isC
    cases isN
    cases isN'
    cases isOne
    cases multiplied
    cases difference
    cases operated
    rw [deriveVariable, if_neg (not_not.2 rfl)] at h
    split at h
    · next zero =>
      rw [← Except.ok.inj h, meaning_zero, Decimal.toReal_of_isZero zero, mul_zero, zero_mul]
    · split at h
      · cases h
      · next coefficient multiplies =>
        obtain ⟨exponent, less, h⟩ := bind_eq_ok.1 h
        have lowered : (ofNumber exponent).meaning calls ρ =
            some (term.exponent.toReal - Decimal.one.toReal) := by
          rw [meaning_ofNumber, toReal_lessOne less lowers, Decimal.toReal_one]
        have factor : TimesIsExact (ofNumber coefficient)
            (toThe (plain s.variableName) (ofNumber exponent)) :=
          scaledIsExact_power coefficient.normalize s.variableName exponent
        rw [← Except.ok.inj h, meaning_times factor (meaning_ofNumber coefficient)
          (meaning_toThe isBase lowered isPower), product.toReal multiplies]

namespace Refines

variable {a a' b b' : Expr}

/-- Refinement is kept under a minus sign. -/
theorem negated (h : s.Refines calls a' a) :
    s.Refines calls (.signed .negative a') a.negated := by
  intro ρ allowed q value
  obtain ⟨p, inner, rfl⟩ := meaning_signed_eq_some.1 value
  exact meaning_negated (h ρ allowed p inner)

/-- A plus sign in the formal derivative may be dropped. -/
theorem positive (h : s.Refines calls a' a) : s.Refines calls (.signed .positive a') a := by
  intro ρ allowed q value
  obtain ⟨p, inner, same⟩ := meaning_signed_eq_some.1 value
  rw [same]
  exact h ρ allowed p inner

/-- Refinement is kept by the simplified sum, as long as its constants add exactly. -/
theorem plus (h : s.Refines calls a' a) (h' : s.Refines calls b' b) (exact : PlusIsExact a b) :
    s.Refines calls (.binary .add a' b') (plus a b) := by
  intro ρ allowed q value
  obtain ⟨x, y, left, right, sum⟩ := meaning_binary_eq_some.1 value
  rw [meaning_plus exact (h ρ allowed x left) (h' ρ allowed y right)]
  exact sum

/-- Refinement is kept by the simplified difference, as long as its constants subtract exactly. -/
theorem minus (h : s.Refines calls a' a) (h' : s.Refines calls b' b) (exact : MinusIsExact a b) :
    s.Refines calls (.binary .subtract a' b') (minus a b) := by
  intro ρ allowed q value
  obtain ⟨x, y, left, right, difference⟩ := meaning_binary_eq_some.1 value
  rw [meaning_minus exact (h ρ allowed x left) (h' ρ allowed y right)]
  exact difference

/-- Refinement is kept by the simplified product, as long as its constants multiply exactly. -/
theorem times (h : s.Refines calls a' a) (h' : s.Refines calls b' b) (exact : TimesIsExact a b) :
    s.Refines calls (.binary .multiply a' b') (times a b) := by
  intro ρ allowed q value
  obtain ⟨x, y, left, right, product⟩ := meaning_binary_eq_some.1 value
  rw [meaning_times exact (h ρ allowed x left) (h' ρ allowed y right)]
  exact product

/-- Refinement is kept by the simplified quotient, as long as its constants divide exactly. -/
theorem dividedBy (h : s.Refines calls a' a) (h' : s.Refines calls b' b)
    (exact : DividedByIsExact a b) :
    s.Refines calls (.binary .divide a' b') (dividedBy a b) := by
  intro ρ allowed q value
  obtain ⟨x, y, left, right, quotient⟩ := meaning_binary_eq_some.1 value
  rw [Exact.operate] at quotient
  split at quotient
  · cases quotient
  · next nonzero =>
    rw [meaning_dividedBy exact (h ρ allowed x left) (h' ρ allowed y right) nonzero, quotient]

/-- Refinement is kept by the simplified power. -/
theorem toThe (h : s.Refines calls a' a) (h' : s.Refines calls b' b) :
    s.Refines calls (.binary .power a' b') (toThe a b) := by
  intro ρ allowed q value
  obtain ⟨x, y, left, right, power⟩ := meaning_binary_eq_some.1 value
  exact meaning_toThe (h ρ allowed x left) (h' ρ allowed y right) power

/-- The lowered exponent refines the exponent minus one, as long as it is lowered exactly. -/
theorem lowered (h : s.Refines calls e n) (less : lowered n = .ok m)
    (exact : PowerLowersExactly n) :
    s.Refines calls (.binary .subtract e (.number .one)) m := by
  intro ρ allowed q value
  obtain ⟨x, y, left, right, difference⟩ := meaning_binary_eq_some.1 value
  rw [meaning_number, Decimal.toReal_one] at right
  rw [meaning_lowered less exact (h ρ allowed x left), Option.some.inj right]
  exact difference

/-- The tree of two refines the literal two. -/
theorem ofNumber_two : s.Refines calls (.number .two) (ofNumber .two) := by
  intro ρ _ q value
  rw [meaning_ofNumber, ← value, meaning_number]

/-- By a constant, the rule for quotients divides the derivative. -/
theorem dividedBy_constant {f : Expr} (h : s.Refines calls a' a) (h' : s.Refines calls b' b)
    (exact : DividedByIsExact a b) :
    s.Refines calls
      (.binary .divide (.binary .subtract (.binary .multiply a' b') (.binary .multiply f zero))
        (.binary .power b' (.number .two))) (Expr.dividedBy a b) := by
  intro ρ allowed q value
  obtain ⟨dividend, square, numerator, denominator, quotient⟩ := meaning_binary_eq_some.1 value
  obtain ⟨first, second, product, product', difference⟩ := meaning_binary_eq_some.1 numerator
  obtain ⟨x, y, isX, isY, times⟩ := meaning_binary_eq_some.1 product
  obtain ⟨w, z, _, isZ, times'⟩ := meaning_binary_eq_some.1 product'
  obtain ⟨y', two, isY', isTwo, power⟩ := meaning_binary_eq_some.1 denominator
  rw [meaning_zero] at isZ
  rw [meaning_number, Decimal.toReal_two] at isTwo
  rw [isY] at isY'
  cases isY'
  cases isZ
  cases isTwo
  rw [Exact.operate, Exact.power_two] at power
  cases power
  cases times
  cases times'
  cases difference
  rw [Exact.operate] at quotient
  split at quotient
  · cases quotient
  · next nonzero =>
    cases quotient
    have divisor : y ≠ 0 := fun isZero => nonzero (by rw [isZero, zero_pow two_ne_zero])
    rw [meaning_dividedBy exact (h ρ allowed x isX) (h' ρ allowed y isY) divisor]
    congr 1
    field_simp
    ring

end Refines

/-! ## The derivative of a tree -/

/-- A part has a formal derivative that the given tree refines. -/
def HasDerivative (s : Setting) (calls : CallMeaning) (e d : Expr) : Prop :=
  ∃ t, e.formalDerivative s.variableName = some t ∧ s.Refines calls t d

/-- The derivative zero is right for a tree that is free of the variable. -/
theorem hasDerivative_of_constant (free : e.mentions s.variableName = false)
    (h : IsZeroNumber d) : s.HasDerivative calls e d :=
  ⟨zero, formalDerivative_of_constant free, refines_zero h⟩

/-- A negated variable is a minus sign in front of a variable without factor and exponent. -/
theorem exists_of_isNegatedVariable (h : e.isNegatedVariable = true) :
    ∃ name, e = .signed .negative (.variable name none) := by
  unfold isNegatedVariable at h
  split at h
  · next name => exact ⟨name, rfl⟩
  · cases h

/-- The sign of a bare variable is taken into its derivative, any other one stands in front. -/
theorem hasDerivative_signed {sign : Sign} {operand : Expr}
    (mentioned : (Expr.signed sign operand).mentions s.variableName = true)
    (h : s.derive false depth (.signed sign operand) = .ok d)
    (ih : ∀ inner, s.derive false (depth + 1) operand = .ok inner →
      s.HasDerivative calls operand inner) :
    s.HasDerivative calls (.signed sign operand) d := by
  obtain ⟨inner, derived, rfl⟩ := step_of_derive h
  cases bare : (Expr.signed sign operand).isNegatedVariable with
  | false =>
    rw [bare] at derived
    obtain ⟨t, formal, refines⟩ := ih inner derived
    refine ⟨.signed sign t, formalDerivative_signed mentioned formal, ?_⟩
    cases sign with
    | positive => exact refines.positive
    | negative => exact refines.negated
  | true =>
    rw [bare] at derived
    obtain ⟨name, same⟩ := exists_of_isNegatedVariable bare
    cases same
    have own : name = s.variableName := beq_iff_eq.1 mentioned
    subst own
    have step : s.deriveVariable true s.variableName none = .ok inner := step_of_derive derived
    rw [deriveVariable, if_neg (not_not.2 rfl), if_pos rfl] at step
    refine ⟨.signed .negative (.number .one),
      formalDerivative_signed mentioned (formalDerivative_variable _ none), ?_⟩
    intro ρ _ q value
    obtain ⟨p, one, rfl⟩ := meaning_signed_eq_some.1 value
    rw [meaning_number, Decimal.toReal_one] at one
    rw [Bool.or_true, if_pos rfl, ← Except.ok.inj step, meaning_ofNumber, Decimal.toReal_negOne,
      ← Option.some.inj one, Exact.sign]

/-- Each operation follows its rule. -/
theorem hasDerivative_binary {op : Operator} {left right : Expr}
    (mentioned : (Expr.binary op left right).mentions s.variableName = true)
    (h : s.derive false depth (.binary op left right) = .ok d)
    (powers : (Expr.binary op left right).hasConstantBase s.variableName = false)
    (exact : s.CombinesExactly calls depth left right op)
    (ih : ∀ df, s.derive false (depth + 1) left = .ok df → s.HasDerivative calls left df)
    (ih' : ∀ dg, s.derive false (depth + 1) right = .ok dg → s.HasDerivative calls right dg) :
    s.HasDerivative calls (.binary op left right) d := by
  cases op with
  | add =>
    obtain ⟨df, dg, first, second, rfl⟩ := step_of_derive h
    obtain ⟨t, formal, refines⟩ := ih df first
    obtain ⟨t', formal', refines'⟩ := ih' dg second
    refine ⟨_, formalDerivative_binary mentioned nofun formal formal', ?_⟩
    exact refines.plus refines' (exact df dg first second)
  | subtract =>
    obtain ⟨df, dg, first, second, rfl⟩ := step_of_derive h
    obtain ⟨t, formal, refines⟩ := ih df first
    obtain ⟨t', formal', refines'⟩ := ih' dg second
    refine ⟨_, formalDerivative_binary mentioned nofun formal formal', ?_⟩
    exact refines.minus refines' (exact df dg first second)
  | multiply =>
    obtain ⟨f, g, df, dg, keptLeft, keptRight, first, second, rfl⟩ := step_of_derive h
    obtain ⟨t, formal, refines⟩ := ih df first
    obtain ⟨t', formal', refines'⟩ := ih' dg second
    obtain ⟨foldsLeft, foldsRight, rounds⟩ := exact
    obtain ⟨times, times', plus⟩ := rounds f g df dg keptLeft keptRight first second
    refine ⟨_, formalDerivative_binary mentioned nofun formal formal', ?_⟩
    exact (refines.times (refines_fold keptRight foldsRight) times).plus
      ((refines_fold keptLeft foldsLeft).times refines' times') plus
  | divide =>
    obtain ⟨f, g, df, keptLeft, keptRight, first, cases⟩ := step_of_derive h
    obtain ⟨t, formal, refines⟩ := ih df first
    obtain ⟨foldsLeft, foldsRight, rounds⟩ := exact
    obtain ⟨byConstant, whole⟩ := rounds f g df keptLeft keptRight first
    rcases cases with ⟨free, rfl⟩ | ⟨varies, dg, second, rfl⟩
    · refine ⟨_, formalDerivative_binary mentioned nofun formal
        (formalDerivative_of_constant free), ?_⟩
      exact refines.dividedBy_constant (refines_fold keptRight foldsRight) (byConstant free)
    · obtain ⟨t', formal', refines'⟩ := ih' dg second
      obtain ⟨times, times', minus, divided⟩ := whole varies dg second
      refine ⟨_, formalDerivative_binary mentioned nofun formal formal', ?_⟩
      have kept := refines_fold keptRight foldsRight
      exact ((refines.times kept times).minus ((refines_fold keptLeft foldsLeft).times refines'
        times') minus).dividedBy (kept.toThe Refines.ofNumber_two) divided
  | power =>
    rw [hasConstantBase, Bool.or_eq_false_iff, Bool.or_eq_false_iff] at powers
    rcases step_of_derive h with ⟨free, free', _⟩ |
      ⟨free', n, m, b, df, keptExponent, less, keptBase, first, rfl⟩ | ⟨free, varies, _⟩
    · rw [mentions, free, free'] at mentioned
      exact absurd mentioned Bool.false_ne_true
    · obtain ⟨t, formal, refines⟩ := ih df first
      obtain ⟨foldsLeft, foldsRight, rounds⟩ := exact
      obtain ⟨lowers, times, times'⟩ := rounds n m b df keptExponent less keptBase first
      have kept := refines_fold keptExponent foldsRight
      refine ⟨_, formalDerivative_binary mentioned (fun _ => free') formal
        (formalDerivative_of_constant free'), ?_⟩
      exact (kept.times ((refines_fold keptBase foldsLeft).toThe (kept.lowered less lowers))
        times).times refines times'
    · rw [free, varies] at powers
      exact absurd powers.1.1 (by decide)
  | _ => exact (step_of_derive h).elim

/-- The tree that `derive` puts together is the formal derivative: it is defined wherever that is,
and means the same. The tree has no power with a constant base, no number changes its value when
kept parts are folded, and no step rounds. -/
theorem derive_refines_formalDerivative (h : s.derive false depth e = .ok d)
    (powers : e.hasConstantBase s.variableName = false)
    (monomials : e.MonomialsStepDownExactly s.variableName)
    (exact : s.DerivesExactly calls depth e) :
    ∃ t, e.formalDerivative s.variableName = some t ∧ s.Refines calls t d := by
  induction e using hasConstantBase.induct generalizing depth d with
  | case1 sign operand ih =>
    cases mentioned : (Expr.signed sign operand).mentions s.variableName with
    | false => exact hasDerivative_of_constant mentioned (isZeroNumber_of_derive mentioned h)
    | true =>
      exact hasDerivative_signed mentioned h fun inner derived => ih derived powers monomials exact
  | case2 op left right ih ih' =>
    cases mentioned : (Expr.binary op left right).mentions s.variableName with
    | false => exact hasDerivative_of_constant mentioned (isZeroNumber_of_derive mentioned h)
    | true =>
      obtain ⟨exactLeft, exactRight, combines⟩ := exact mentioned
      have parts := powers
      rw [hasConstantBase, Bool.or_eq_false_iff, Bool.or_eq_false_iff] at parts
      exact hasDerivative_binary mentioned h powers combines
        (fun df first => ih first parts.1.2 monomials.1 exactLeft)
        fun dg second => ih' second parts.2 monomials.2 exactRight
  | case3 e noSign noOperator =>
    rcases derive_leaf noSign noOperator h with ⟨free, rfl⟩ | ⟨term, rfl, step⟩
    · exact hasDerivative_of_constant free isZeroNumber_zero
    · exact ⟨_, formalDerivative_variable _ term, refines_deriveVariable step monomials⟩

/-- For `x ^ 2 / 2 - 3x ^ 2`, no step of differentiation rounds. -/
theorem derive_refines_formalDerivative_square :
    let s : Setting := ⟨{}, Scope.root.child, "x"⟩
    let calls : CallMeaning := fun _ _ _ => none
    let square : Expr := .binary .power (plain "x") (.number .two)
    let e : Expr := .binary .subtract (.binary .divide square (.number .two))
      (.variable "x" (some ⟨.three, .two⟩))
    ∃ d, s.derive false 0 e = .ok d ∧ e.hasConstantBase "x" = false ∧
      e.MonomialsStepDownExactly "x" ∧ s.DerivesExactly calls 0 e ∧
      ∃ t, e.formalDerivative "x" = some t ∧ s.Refines calls t d := by
  intro s calls square e
  let twice : Expr := .binary .multiply (.number .two) (plain "x")
  let six : Decimal := ⟨false, 6, 0, by decide, by decide⟩
  have keptName : s.fold (plain "x") = .ok (plain "x") := by rfl
  have keptSquare : s.fold square = .ok square := by rfl
  have keptTwo : s.fold (.number .two) = .ok (.number .two) := by rfl
  have one : s.derive false 3 (plain "x") = .ok (.number .one) := by decide +kernel
  have first : s.derive false 2 square = .ok twice := by decide +kernel
  have half : s.derive false 1 (.binary .divide square (.number .two)) =
      .ok (.binary .divide twice (.number .two)) := by decide +kernel
  have monomial : s.derive false 1 (.variable "x" (some ⟨.three, .two⟩)) =
      .ok (.binary .multiply (.number six) (plain "x")) := by decide +kernel
  have derived : s.derive false 0 e = .ok (.binary .subtract
      (.binary .divide twice (.number .two)) (.binary .multiply (.number six) (plain "x"))) := by
    decide +kernel
  have foldsName : s.FoldsExactly calls (plain "x") := by
    intro value folded
    rw [keptName] at folded
    cases folded
  have foldsSquare : s.FoldsExactly calls square := by
    intro value folded
    rw [keptSquare] at folded
    exact Expr.noConfusion (Except.ok.inj folded)
  have foldsTwo : s.FoldsExactly calls (.number .two) := by
    intro value folded ρ _ q two
    rw [keptTwo] at folded
    cases folded
    rw [meaning_number] at two
    exact (Option.some.inj two).symm
  have power : s.CombinesExactly calls 2 (plain "x") (.number .two) .power := by
    refine ⟨foldsName, foldsTwo, fun n m b df keptExponent less keptBase inner => ?_⟩
    rw [keptTwo] at keptExponent
    rw [keptName] at keptBase
    rw [one] at inner
    cases keptExponent
    cases keptBase
    cases inner
    cases less
    refine ⟨fun number => ?_, trivial, fun number => ?_⟩ <;> cases number
  have quotient : s.CombinesExactly calls 1 square (.number .two) .divide := by
    refine ⟨foldsSquare, foldsTwo, fun f g df keptLeft keptRight inner =>
      ⟨fun _ => ?_, fun mentioned => absurd mentioned (by decide)⟩⟩
    rw [first] at inner
    cases inner
    intro _ number
    cases number
  have difference : s.CombinesExactly calls 0 (.binary .divide square (.number .two))
      (.variable "x" (some ⟨.three, .two⟩)) .subtract := by
    intro df dg left right
    rw [half] at left
    cases left
    intro _ number
    cases number
  have monomials : e.MonomialsStepDownExactly "x" :=
    ⟨⟨⟨trivial, trivial⟩, trivial⟩,
      fun _ => ⟨by decide +kernel, fun fraction => absurd fraction (by decide)⟩⟩
  have exact : s.DerivesExactly calls 0 e :=
    fun _ => ⟨fun _ => ⟨fun _ => ⟨trivial, trivial, power⟩, trivial, quotient⟩, trivial, difference⟩
  exact ⟨_, derived, rfl, monomials, exact,
    derive_refines_formalDerivative derived rfl monomials exact⟩

/-- Not every derivative is the formal one if only folding and the constructors are exact: the
product of the coefficient and the exponent of a monomial may round. -/
theorem monomial_product_rounds :
    ¬∀ (s : Setting) (calls : CallMeaning) (e d : Expr),
      Scope.constants.get? s.variableName = none → s.derive false 0 e = .ok d →
      e.hasConstantBase s.variableName = false → s.DerivesExactly calls 0 e →
      ∃ t, e.formalDerivative s.variableName = some t ∧ s.Refines calls t d := by
  intro claim
  let s : Setting := ⟨{}, Scope.root.child, "x"⟩
  let calls : CallMeaning := fun _ _ _ => none
  let coefficient : Decimal := ⟨false, 10000000000000000000000390625, 28, by decide, by decide⟩
  let exponent : Decimal := ⟨false, 9, 0, by decide, by decide⟩
  let product : Decimal := ⟨false, 9000000000000000000000351562, 27, by decide, by decide⟩
  let lower : Decimal := ⟨false, 8, 0, by decide, by decide⟩
  let ρ : Assignment := fun name =>
    ((Scope.constants.get? name).bind Value.number?).elim 1 Decimal.toReal
  have derived : s.derive false 0 (.variable "x" (some ⟨coefficient, exponent⟩)) =
      .ok (.binary .multiply (.number product)
        (.binary .power (plain "x") (.number lower))) := by decide +kernel
  have allowed : s.Allows ρ := by
    intro name value bound
    have found : Scope.constants.get? name = some (.number value) := bound
    simp only [ρ, found, Option.bind_some, Value.number?, Option.elim_some]
  have onePower : ∀ q : ℝ, Exact.operate .power 1 q = some 1 := by
    intro q
    have defined : ¬Exact.PowerUndefined 1 q := fun undefined =>
      undefined.elim (fun h => one_ne_zero h.1) fun h => not_lt.2 zero_le_one h.1
    rw [Exact.operate, Exact.power, if_neg defined, Real.one_rpow]
  have name : (plain "x").meaning calls ρ = some 1 := meaning_plain "x"
  have factors : (Expr.binary .multiply (.number coefficient) (.number exponent)).meaning calls ρ =
      some (coefficient.toReal * exponent.toReal) :=
    meaning_binary (meaning_number _) (meaning_number _)
  have power : (Expr.binary .power (plain "x") (.binary .subtract (.number exponent)
      (.number .one))).meaning calls ρ = some 1 := by
    have less : (Expr.binary .subtract (.number exponent) (.number .one)).meaning calls ρ =
        some (exponent.toReal - Decimal.one.toReal) :=
      meaning_binary (meaning_number exponent) (meaning_number .one)
    rw [meaning_binary name less, onePower]
  have exact : (monomialRule "x" (some ⟨coefficient, exponent⟩)).meaning calls ρ =
      some (coefficient.toReal * exponent.toReal * 1) := meaning_binary factors power
  have power' : (Expr.binary .power (plain "x") (.number lower)).meaning calls ρ = some 1 := by
    rw [meaning_binary name (meaning_number lower), onePower]
  have rounded : (Expr.binary .multiply (.number product)
      (.binary .power (plain "x") (.number lower))).meaning calls ρ = some (product.toReal * 1) :=
    meaning_binary (meaning_number product) power'
  obtain ⟨t, formal, refines⟩ := claim s calls _ _ (by decide) derived rfl trivial
  rw [formalDerivative_variable] at formal
  cases formal
  have same := (refines ρ allowed _ exact).symm.trans rounded
  rw [Option.some.injEq, mul_one, mul_one, Decimal.toReal, Decimal.toReal, Decimal.toReal] at same
  have different : coefficient.toRat * exponent.toRat ≠ product.toRat := by decide +kernel
  exact different (by exact_mod_cast same)

end Setting

end Reckon.Expr
