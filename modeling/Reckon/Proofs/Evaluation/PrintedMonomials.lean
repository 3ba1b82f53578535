import Reckon.Proofs.Decimal.Integers
import Reckon.Proofs.Evaluation.Reaching
import Reckon.Proofs.Evaluation.Scales
import Reckon.Proofs.Syntax.Monomials

/-!
# Printed monomials keep their values

A variable with a monomial evaluates to its coefficient times a power of what the variable is bound
to. Its text leaves out exponents and coefficients that are 0 or 1, and what is read from it takes
the power first, then the product. With an integer exponent both give the same number, or neither
has room for it.
-/

namespace Reckon

open Decimal (Equals)

/-- Both faults say why a number could not be computed. -/
def Fault.AreArithmetic (f f' : Fault) : Prop :=
  (∃ problem, f = .arithmetic problem) ∧ ∃ problem, f' = .arithmetic problem

/-- Two problems of arithmetic both say why a number could not be computed. -/
theorem Fault.areArithmetic (problem problem' : ArithmeticProblem) :
    (Fault.arithmetic problem).AreArithmetic (.arithmetic problem') :=
  ⟨⟨problem, rfl⟩, problem', rfl⟩

/-- The value is the number, whatever its scale. -/
def Value.IsNumber (d : Decimal) (w : Value) : Prop :=
  ∃ d', w = .number d' ∧ d.Equals d'

/-- Both values are numbers, and they are equal. -/
def Value.AreEqual (v v' : Value) : Prop :=
  ∃ d, v = .number d ∧ v'.IsNumber d

/-- Equal numbers are equal as values. -/
theorem Value.areEqual {d d' : Decimal} (same : d.Equals d') :
    (Value.number d).AreEqual (.number d') :=
  ⟨d, rfl, d', rfl, same⟩

section

variable {faults : Fault → Fault → Prop} {x y : Except Fault Decimal}

/-- Equal results, one of them as a value. -/
theorem Matches.isNumber (h : Matches faults Equals x y) :
    Matches faults Value.IsNumber x (y.map .number) := by
  cases h with
  | ok equal => exact .ok ⟨_, rfl, equal⟩
  | error related => exact .error related

/-- Equal results, both as values. -/
theorem Matches.areEqual (h : Matches faults Equals x y) :
    Matches faults Value.AreEqual (x >>= fun d => .ok (.number d)) (y.map .number) := by
  cases h with
  | ok equal => exact .ok (Value.areEqual equal)
  | error related => exact .error related

end

namespace Decimal

variable {t exponent : Decimal}

/-- A power with an exponent that is zero is one. -/
theorem power_of_toRat_zero (zero : exponent.toRat = 0) : t.power exponent = .ok one := by
  have integer : exponent.toRat = (0 : ℤ) := zero
  rw [power, isInteger_of_toRat integer, truncate_of_toRat integer, if_pos rfl]
  dsimp only
  rw [if_neg (by decide), if_pos (by decide), Int.toNat_zero, pow?_zero]
  rfl

/-- A power with an exponent that is one is its base, up to the scale. -/
theorem exists_power_of_toRat_one (unit : exponent.toRat = 1) :
    ∃ q, t.power exponent = .ok q ∧ q.toRat = t.toRat := by
  have integer : exponent.toRat = (1 : ℤ) := unit
  have base : ∃ q, t.pow? 1 = some q ∧ q.toRat = t.toRat := by
    rw [pow?, if_neg (by decide)]
    split
    · next none => exact ⟨zero, rfl, (toRat_of_isZero none).symm⟩
    · split
      · next same => exact ⟨one, rfl, (same_iff.1 same).symm⟩
      · exact ⟨t, rfl, rfl⟩
  obtain ⟨q, found, value⟩ := base
  refine ⟨q, ?_, value⟩
  rw [power, isInteger_of_toRat integer, truncate_of_toRat integer, if_pos rfl]
  dsimp only
  rw [if_neg (by decide), if_pos (by decide), show Int.toNat 1 = 1 from rfl, found]
  rfl

/-- A factor of 1 or -1 never takes more room. -/
theorem exists_multiply_of_toRat (coefficient q r : Decimal)
    (product : r.toRat = coefficient.toRat * q.toRat) :
    ∃ z, Operator.multiply.apply coefficient q = .ok z ∧ z.toRat = r.toRat := by
  obtain ⟨z, found, value⟩ := exists_mul?_of_toRat_eq product
  refine ⟨z, ?_, value⟩
  rw [Operator.apply, found]
  rfl

end Decimal

namespace Expr

open Token (isIdentifier)

section

variable {settings : Settings} {s : Scope} {name : String} {term : Monomial}
  {t exponent : Decimal}

/-- A variable that is bound to a number evaluates to it. -/
theorem evalWithin_plain_of_bound {levels : Nat} (bound : s.binding? name = some (.number t)) :
    (plain name).evalWithin settings (levels + 1) s = .ok (.number t) := by
  rw [plain, evalWithin_variable]
  simp only [Scope.valueOf, bound]

/-- What is read from a name and its exponent is the power, or it fails as the power does. -/
theorem matches_powerOf (settings : Settings) (levels : Nat)
    (bound : s.binding? name = some (.number t)) (integer : exponent.isInteger = true) :
    Matches Fault.AreArithmetic Value.IsNumber (t.power exponent)
      ((powerOf name exponent.normalize).evalWithin settings (levels + 3) s) := by
  have equal : exponent.normalize.toRat = exponent.toRat := Decimal.toRat_normalize exponent
  have raised : ∀ {e : Expr} {n : Decimal}, exponent.Equals n →
      e.evalWithin settings (levels + 2) s = .ok (.number n) →
      Matches Fault.AreArithmetic Value.IsNumber (t.power exponent)
        ((Expr.binary .power (plain name) e).evalWithin settings (levels + 3) s) := by
    intro e n same value
    have powers : Matches Fault.AreArithmetic Equals (t.power exponent) (t.power n) :=
      (lifts_matches _).power_of_isInteger Fault.areArithmetic integer rfl same rfl
    have combined : (Expr.binary .power (plain name) e).evalWithin settings (levels + 3) s =
        (t.power n).map .number := by
      rw [evalWithin_binary, evalWithin_plain_of_bound bound, value]
      rfl
    rw [combined]
    exact powers.isNumber
  rw [powerOf]
  split
  · next one =>
    have unit : exponent.toRat = 1 := by
      rw [← equal, Decimal.same_iff.1 one, Decimal.toRat_one]
    obtain ⟨q, power, value⟩ := Decimal.exists_power_of_toRat_one (t := t) unit
    rw [power, evalWithin_plain_of_bound bound]
    exact .ok ⟨t, rfl, value.symm⟩
  · split
    · refine raised (n := exponent.normalize.neg.neg) ?_ ?_
      · rw [Decimal.neg_neg]
        exact equal
      · exact evalWithin_signed_eq_ok.2 ⟨_, rfl, rfl⟩
    · exact raised equal rfl

/-- What is read from a coefficient is a number of its value. -/
theorem exists_evalWithin_signedNumber (settings : Settings) (s : Scope) (coefficient : Decimal)
    {levels : Nat} (deep : 2 ≤ levels) :
    ∃ c, (signedNumber coefficient).evalWithin settings levels s = .ok (.number c) ∧
      c.toRat = coefficient.toRat := by
  have low := height_signedNumber_le coefficient
  exact reaches_signedNumber coefficient settings levels rfl (by omega)

/-- With exponent 0 the power is 1, and only the coefficient is written. -/
theorem matches_coefficient (settings : Settings) (levels : Nat)
    (zero : term.exponent.toRat = 0) :
    Matches Fault.AreArithmetic Value.AreEqual (term.apply (.number t))
      ((signedNumber term.coefficient).evalWithin settings (levels + 4) s) := by
  obtain ⟨z, product, value⟩ := Decimal.exists_multiply_of_toRat term.coefficient .one
    term.coefficient (by rw [Decimal.toRat_one, mul_one])
  obtain ⟨c, evaluated, same⟩ := exists_evalWithin_signedNumber settings s term.coefficient
    (by omega : 2 ≤ levels + 4)
  rw [Monomial.apply_number, Decimal.power_of_toRat_zero zero]
  simp only [bind, Except.bind, product, evaluated]
  exact .ok (Value.areEqual (same.trans value.symm))

/-- With coefficient 1 only the power is written, and 1 times the power has its room. -/
theorem matches_power (settings : Settings) (levels : Nat)
    (bound : s.binding? name = some (.number t)) (integer : term.exponent.isInteger = true)
    (one : term.coefficient.toRat = 1) :
    Matches Fault.AreArithmetic Value.AreEqual (term.apply (.number t))
      ((powerOf name term.exponent.normalize).evalWithin settings (levels + 4) s) := by
  have powers := matches_powerOf settings (levels + 1) bound integer
  rw [Monomial.apply_number, ← bind_pure ((powerOf _ _).evalWithin _ _ _)]
  refine (lifts_matches _).bind powers ?_
  rintro p _ - - ⟨p', rfl, same⟩
  obtain ⟨z, product, value⟩ := Decimal.exists_multiply_of_toRat term.coefficient p p
    (by rw [one, one_mul])
  rw [product]
  exact .ok (Value.areEqual (same.trans value.symm))

/-- With coefficient -1 and exponent 1 the name is written with a sign. -/
theorem matches_minus (settings : Settings) (levels : Nat)
    (bound : s.binding? name = some (.number t)) (minus : term.coefficient.toRat = -1)
    (one : term.exponent.toRat = 1) :
    Matches Fault.AreArithmetic Value.AreEqual (term.apply (.number t))
      ((Expr.signed .negative (plain name)).evalWithin settings (levels + 4) s) := by
  obtain ⟨q, power, base⟩ := Decimal.exists_power_of_toRat_one (t := t) one
  obtain ⟨z, product, value⟩ := Decimal.exists_multiply_of_toRat term.coefficient q
    q.neg (by rw [minus, neg_one_mul, Decimal.toRat_neg])
  have negated : (Expr.signed .negative (plain name)).evalWithin settings (levels + 4) s =
      .ok (.number t.neg) :=
    evalWithin_signed_eq_ok.2 ⟨_, evalWithin_plain_of_bound bound, rfl⟩
  rw [Monomial.apply_number, power]
  simp only [bind, Except.bind, product, negated]
  refine .ok (Value.areEqual (Eq.trans ?_ value.symm))
  rw [Decimal.toRat_neg, Decimal.toRat_neg, base]

/-- Otherwise the coefficient is multiplied by what is read as the power. -/
theorem matches_product (settings : Settings) (levels : Nat)
    (bound : s.binding? name = some (.number t)) (integer : term.exponent.isInteger = true) :
    Matches Fault.AreArithmetic Value.AreEqual (term.apply (.number t))
      ((Expr.binary .multiply (signedNumber term.coefficient)
        (powerOf name term.exponent.normalize)).evalWithin settings (levels + 4) s) := by
  have powers := matches_powerOf settings levels bound integer
  obtain ⟨c, evaluated, same⟩ := exists_evalWithin_signedNumber settings s term.coefficient
    (by omega : 2 ≤ levels + 3)
  rw [Monomial.apply_number, evalWithin_binary, evaluated]
  change Matches _ _ _ (_ >>= fun r => (Value.number c).combine .multiply r)
  refine (lifts_matches _).bind powers ?_
  rintro p _ - - ⟨p', rfl, samePower⟩
  have products : Matches Fault.AreArithmetic Equals
      (Operator.multiply.apply term.coefficient p) (Operator.multiply.apply c p') :=
    (lifts_matches _).operator Fault.areArithmetic same samePower (by simp)
  exact products.areEqual

/-- What is read from the text of a monomial is its value, or it fails as the monomial does. -/
theorem matches_monomial (settings : Settings) (levels : Nat)
    (bound : s.binding? name = some (.number t)) (integer : term.exponent.isInteger = true) :
    Matches Fault.AreArithmetic Value.AreEqual (term.apply (.number t))
      ((term.form name).tree.evalWithin settings (levels + 4) s) := by
  have equal : term.exponent.normalize.toRat = term.exponent.toRat := Decimal.toRat_normalize _
  rw [Monomial.form]
  split
  · next none =>
    exact matches_coefficient settings levels (by rw [← equal, Decimal.toRat_of_isZero none])
  · split
    · next unit =>
      have one : term.coefficient.toRat = 1 := by
        rw [Decimal.same_iff.1 unit, Decimal.toRat_one]
      exact matches_power settings levels bound integer one
    · split
      · next lone =>
        rw [Bool.and_eq_true] at lone
        have minus : term.coefficient.toRat = -1 := by
          rw [Decimal.same_iff.1 lone.1, Decimal.toRat_negOne]
        have one : term.exponent.toRat = 1 := by
          rw [← equal, Decimal.same_iff.1 lone.2, Decimal.toRat_one]
        exact matches_minus settings levels bound minus one
      · exact matches_product settings levels bound integer

end

/-- A printed power has at most three levels. -/
theorem height_powerOf_le (name : String) (exponent : Decimal) :
    (powerOf name exponent).height ≤ 3 := by
  rw [powerOf]
  split
  · exact (by decide : 1 ≤ 3)
  · split
    · exact (by decide : 3 ≤ 3)
    · exact (by decide : 2 ≤ 3)

/-- A printed monomial has at most four levels. -/
theorem height_monomialForm_le (name : String) (term : Monomial) :
    (term.form name).tree.height ≤ 4 := by
  have coefficient := height_signedNumber_le term.coefficient
  have power := height_powerOf_le name term.exponent.normalize
  rw [Monomial.form]
  split
  · rw [Form.tree]
    omega
  · split
    · rw [Form.tree]
      omega
    · split
      · exact (by decide : 2 ≤ 4)
      · rw [Form.tree, height]
        omega

/-- An annotated variable prints what it evaluates to. If its exponent is an integer, its text is
read under every limit from four levels on, the default one among them, and in every scope that
binds its name to a number, the tree that is read evaluates to the same number as the variable
itself, or both fail with an arithmetic fault. -/
theorem printed_monomial_evaluates_alike {term : Monomial}
    (integer : term.exponent.isInteger = true) {name : String} (valid : isIdentifier name = true) :
    ∃ tree, (∀ limit, 4 ≤ limit → parse limit (term.render name) = .ok tree) ∧
      ∀ (settings : Settings) (s : Scope) (t : Decimal), 3 ≤ settings.maxDepth →
        (∃ v v', (Expr.variable name (some term)).eval settings (s.bind name (.number t)) =
            .ok (.number v) ∧
          tree.eval settings (s.bind name (.number t)) = .ok (.number v') ∧ v'.same v = true) ∨
        ∃ problem problem',
          (Expr.variable name (some term)).eval settings (s.bind name (.number t)) =
            .error (.arithmetic problem) ∧
          tree.eval settings (s.bind name (.number t)) = .error (.arithmetic problem') := by
  refine ⟨(term.form name).tree, fun limit deep => ?_, fun settings s t deep => ?_⟩
  · exact (isWritten_monomial valid term (Nat.le_refl 3)).whole.parse_eq_ok deep
      (Nat.le_trans (height_monomialForm_le name term) deep)
  · obtain ⟨levels, enough⟩ : ∃ levels, settings.maxDepth + 1 = levels + 4 :=
      ⟨settings.maxDepth - 3, by omega⟩
    have bound : (s.bind name (.number t)).binding? name = some (.number t) := by
      rw [Scope.binding?_bind, if_pos rfl]
    have direct : (Expr.variable name (some term)).eval settings (s.bind name (.number t)) =
        term.apply (.number t) := by
      rw [eval, evalWithin_variable]
      simp only [Scope.valueOf, bound]
    have read := matches_monomial settings levels bound integer
    rw [← direct, ← enough] at read
    change Matches _ _ _ ((term.form name).tree.eval settings _) at read
    generalize (Expr.variable name (some term)).eval settings _ = value,
      (term.form name).tree.eval settings _ = value' at read ⊢
    cases read with
    | ok equal =>
      obtain ⟨v, rfl, v', rfl, same⟩ := equal
      exact .inl ⟨v, v', rfl, rfl, Decimal.same_iff.2 same⟩
    | error related =>
      obtain ⟨⟨problem, rfl⟩, problem', rfl⟩ := related
      exact .inr ⟨problem, problem', rfl, rfl⟩

/-- The text of -3.50 times a power with exponent -2.0, read at 3 and at 0: the quotient is rounded
to -0.3888…, and 0 has no such power. -/
theorem printed_monomial_evaluates_alike_reciprocal :
    let term : Monomial :=
      ⟨⟨true, 350, 2, by decide, by decide⟩, ⟨true, 20, 1, by decide, by decide⟩⟩
    let three : Decimal := ⟨false, 3, 0, by decide, by decide⟩
    term.exponent.isInteger = true ∧ isIdentifier "x" = true ∧ term.render "x" = "-3.5x^(-2)" ∧
      ∃ tree, parse defaultMaxDepth "-3.5x^(-2)" = .ok tree ∧
        (∃ v v', (Expr.variable "x" (some term)).eval {} (Scope.root.bind "x" (.number three)) =
            .ok (.number v) ∧
          tree.eval {} (Scope.root.bind "x" (.number three)) = .ok (.number v') ∧
          v'.same v = true) ∧
        ∃ problem problem',
          (Expr.variable "x" (some term)).eval {} (Scope.root.bind "x" (.number .zero)) =
            .error (.arithmetic problem) ∧
          tree.eval {} (Scope.root.bind "x" (.number .zero)) = .error (.arithmetic problem') := by
  intro term three
  have integer : term.exponent.isInteger = true := by decide
  have valid : isIdentifier "x" = true := by decide
  have text : term.render "x" = "-3.5x^(-2)" := by decide +kernel
  have levels : 3 ≤ ({} : Settings).maxDepth := by decide
  have quotient : (Expr.variable "x" (some term)).eval {} (Scope.root.bind "x" (.number three)) =
      .ok (.number ⟨true, 3888888888888888888888888888, 28, by decide, by decide⟩) := by
    decide +kernel
  have noPower : (Expr.variable "x" (some term)).eval {} (Scope.root.bind "x" (.number .zero)) =
      .error (.arithmetic .zeroToNegativePower) := by decide +kernel
  obtain ⟨tree, parsed, values⟩ := printed_monomial_evaluates_alike integer valid
  have atThree := values {} Scope.root three levels
  have atZero := values {} Scope.root .zero levels
  rw [text] at parsed
  refine ⟨integer, valid, text, tree, parsed _ (by decide), atThree.resolve_right ?_,
    atZero.resolve_left ?_⟩
  · rintro ⟨problem, _, failed, _⟩
    cases quotient.symm.trans failed
  · rintro ⟨v, _, found, _⟩
    cases noPower.symm.trans found

end Expr

end Reckon
