import Mathlib.Algebra.Polynomial.Eval.Degree
import Reckon.Proofs.Calculus.Degrees
import Reckon.Proofs.Calculus.Meaning

/-!
# Trees with a degree are polynomials

A tree is read as a function of one variable among the rationals: the other names have numbers,
parts without the variable stand for constants, and the operators are exact. This is what trees mean
among the reals. Where it has a value, a tree of some degree has that of a polynomial of this degree at
most; the polynomial is put together along the tree, one closure lemma for each operation.
-/

namespace Reckon

open Polynomial

/-! ## Reading a tree -/

/-- What is given when a tree is read as a function of one variable. -/
structure Reading where
  /-- The numbers of the other names. -/
  names : String → ℚ
  /-- What the parts without the variable stand for, where they stand for a rational. -/
  constant : Expr → Option ℚ
  /-- What powers with a fraction as exponent stand for, where they stand for a rational. -/
  root : ℚ → ℚ → Option ℚ

namespace Reading

/-- A power among the rationals. Zero has no negative powers. -/
def power (r : Reading) (base exponent : ℚ) : Option ℚ :=
  if exponent.den = 1 then
    if base = 0 ∧ exponent < 0 then none else some (base ^ exponent.num)
  else r.root base exponent

/-- An operator on rationals. A comparison has no value among them. -/
def operate (r : Reading) (op : Operator) (p q : ℚ) : Option ℚ :=
  match op with
  | .add => some (p + q)
  | .subtract => some (p - q)
  | .multiply => some (p * q)
  | .divide => if q = 0 then none else some (p / q)
  | .power => r.power p q
  | _ => none

end Reading

/-- A sign in front of a rational. -/
def Sign.apply : Sign → ℚ → ℚ
  | .positive, q => q
  | .negative, q => -q

namespace Expr

/-- The value of a tree where the variable has the given value. -/
def valueAt (r : Reading) (v : String) (t : ℚ) : Expr → Option ℚ
  | .number value => some value.toRat
  | .variable name none => some (if name = v then t else r.names name)
  | .variable name (some term) =>
    (r.power (if name = v then t else r.names name) term.exponent.toRat).map
      (term.coefficient.toRat * ·)
  | .signed sign operand =>
    if operand.mentions v then (operand.valueAt r v t).map sign.apply
    else r.constant (.signed sign operand)
  | .binary op left right =>
    if left.mentions v || right.mentions v then
      (left.valueAt r v t).bind fun p => (right.valueAt r v t).bind fun q => r.operate op p q
    else r.constant (.binary op left right)
  | .call name args =>
    if (Expr.call name args).mentions v then none else r.constant (.call name args)
  | .vector _ | .matrix _ | .definition _ _ _ => none

end Expr

/-! ## The meaning among the reals -/

/-- What is given for a reading is what names, constants and powers mean among the reals. -/
structure Reading.Agrees (r : Reading) (calls : CallMeaning) (ρ : Assignment) (v : String) (t : ℚ) :
    Prop where
  own : ρ v = t
  names : ∀ name, name ≠ v → ρ name = r.names name
  constant : ∀ e q, r.constant e = some q → e.meaning calls ρ = some (q : ℝ)
  root : ∀ x y q, r.root x y = some q → Exact.power x y = some (q : ℝ)

namespace Reading.Agrees

variable {r : Reading} {calls : CallMeaning} {ρ : Assignment} {v : String} {t x y q : ℚ}
  (agrees : r.Agrees calls ρ v t)

include agrees

/-- A name means among the reals what the reading gives it. -/
theorem name_eq (name : String) : ρ name = ((if name = v then t else r.names name : ℚ) : ℝ) := by
  split
  · next same => rw [same, agrees.own]
  · next other => exact agrees.names name other

/-- A power that has a value in the reading has it among the reals. -/
theorem power (h : r.power x y = some q) : Exact.power x y = some (q : ℝ) := by
  rw [Reading.power] at h
  split at h
  · next integer =>
    have whole : ((y.num : ℚ) : ℝ) = y := by rw [Rat.coe_int_num_of_den_eq_one integer]
    split at h
    · cases h
    · next defined =>
      have defined : ¬Exact.PowerUndefined x y := by
        rintro (⟨zero, negative⟩ | ⟨-, fraction⟩)
        · exact defined ⟨by exact_mod_cast zero, by exact_mod_cast negative⟩
        · exact fraction y.num (by rw [← whole, Rat.cast_intCast])
      rw [Exact.power, if_neg defined, ← whole, Rat.cast_intCast, Real.rpow_intCast,
        ← Option.some.inj h, Rat.cast_zpow]
  · exact agrees.root x y q h

/-- An operation that has a value in the reading has it among the reals. -/
theorem operate {op : Operator} (h : r.operate op x y = some q) :
    Exact.operate op x y = some (q : ℝ) := by
  cases op with
  | add => rw [Exact.operate, ← Option.some.inj h, Rat.cast_add]
  | subtract => rw [Exact.operate, ← Option.some.inj h, Rat.cast_sub]
  | multiply => rw [Exact.operate, ← Option.some.inj h, Rat.cast_mul]
  | divide =>
    rw [Reading.operate] at h
    split at h
    · cases h
    · next nonzero =>
      have nonzero : ¬(y : ℝ) = 0 := by exact_mod_cast nonzero
      rw [Exact.operate, if_neg nonzero, ← Option.some.inj h, Rat.cast_div]
  | power => exact agrees.power h
  | _ => cases h

/-- A value that is read is what the tree means. -/
theorem meaning : ∀ {e : Expr} {q : ℚ}, e.valueAt r v t = some q →
    e.meaning calls ρ = some (q : ℝ)
  | .number value, q, h => by
    rw [Expr.meaning_number, ← Option.some.inj h, Decimal.toReal]
  | .variable name none, q, h => by
    have value : (Expr.variable name none).meaning calls ρ = some (ρ name) := rfl
    rw [value, agrees.name_eq name, Option.some.inj h]
  | .variable name (some term), q, h => by
    obtain ⟨x, raised, rfl⟩ := Option.map_eq_some_iff.1 h
    have value : (Expr.variable name (some term)).meaning calls ρ =
      (Exact.power (ρ name) term.exponent.toReal).map (term.coefficient.toReal * ·) := rfl
    rw [value, agrees.name_eq name, Decimal.toReal, Decimal.toReal, agrees.power raised,
      Option.map_some, Rat.cast_mul]
  | .signed sign operand, q, h => by
    rw [Expr.valueAt] at h
    split at h
    · obtain ⟨x, inner, rfl⟩ := Option.map_eq_some_iff.1 h
      refine Expr.meaning_signed_eq_some.2 ⟨x, meaning inner, ?_⟩
      cases sign with
      | positive => rfl
      | negative => rw [Sign.apply, Exact.sign, Rat.cast_neg]
    · exact agrees.constant _ q h
  | .binary op left right, q, h => by
    rw [Expr.valueAt] at h
    split at h
    · obtain ⟨x, onLeft, h⟩ := Option.bind_eq_some_iff.1 h
      obtain ⟨y, onRight, h⟩ := Option.bind_eq_some_iff.1 h
      exact Expr.meaning_binary_eq_some.2
        ⟨x, y, meaning onLeft, meaning onRight, agrees.operate h⟩
    · exact agrees.constant _ q h
  | .call name args, q, h => by
    rw [Expr.valueAt] at h
    split at h
    · cases h
    · exact agrees.constant _ q h
  | .vector _, _, h => by cases h
  | .matrix _, _, h => by cases h
  | .definition _ _ _, _, h => by cases h

end Reading.Agrees

/-! ## Partial functions that are polynomials -/

/-- Where the function has a value, it is that of a polynomial of degree at most `n`. -/
def IsPolynomial (n : ℕ) (f : ℚ → Option ℚ) : Prop :=
  ∃ p : ℚ[X], p.natDegree ≤ n ∧ ∀ t q, f t = some q → p.eval t = q

/-- The operator applied to the values of two functions, where both have one. -/
def Reading.combine (r : Reading) (op : Operator) (f g : ℚ → Option ℚ) (t : ℚ) : Option ℚ :=
  (f t).bind fun p => (g t).bind fun q => r.operate op p q

/-- A combined function has a value only where both functions have one. -/
theorem Reading.exists_of_combine {r : Reading} {op : Operator} {f g : ℚ → Option ℚ} {t q : ℚ}
    (h : r.combine op f g t = some q) :
    ∃ x y, f t = some x ∧ g t = some y ∧ r.operate op x y = some q := by
  obtain ⟨x, isX, h⟩ := Option.bind_eq_some_iff.1 h
  obtain ⟨y, isY, h⟩ := Option.bind_eq_some_iff.1 h
  exact ⟨x, y, isX, isY, h⟩

/-- A natural power has a value everywhere. -/
theorem Reading.power_natural (r : Reading) (base : ℚ) (k : ℕ) :
    r.power base (k : ℚ) = some (base ^ k) := by
  have nonnegative : ¬(base = 0 ∧ (k : ℚ) < 0) := fun both => absurd both.2 (not_lt.2 k.cast_nonneg)
  rw [power, if_pos (Rat.den_natCast k), if_neg nonnegative, Rat.num_natCast, zpow_natCast]

namespace IsPolynomial

variable {r : Reading} {f g : ℚ → Option ℚ} {k m n : ℕ}

/-- A constant is a polynomial of any degree. -/
theorem constant (c : Option ℚ) (n : ℕ) : IsPolynomial n fun _ => c := by
  refine ⟨C (c.getD 0), ?_, fun t q same => ?_⟩
  · rw [natDegree_C]
    exact Nat.zero_le n
  · have same : c = some q := same
    rw [eval_C, same, Option.getD_some]

/-- The variable is a polynomial of degree one. -/
theorem identity : IsPolynomial 1 some := by
  refine ⟨X, natDegree_X_le, fun t q same => ?_⟩
  rw [eval_X, Option.some.inj same]

/-- A sign keeps a polynomial one of its degree. -/
theorem signed (h : IsPolynomial n f) (sign : Sign) :
    IsPolynomial n fun t => (f t).map sign.apply := by
  obtain ⟨p, degree, value⟩ := h
  cases sign with
  | positive =>
    refine ⟨p, degree, fun t q same => ?_⟩
    obtain ⟨x, isX, rfl⟩ := Option.map_eq_some_iff.1 same
    exact value t x isX
  | negative =>
    refine ⟨-p, by rwa [natDegree_neg], fun t q same => ?_⟩
    obtain ⟨x, isX, rfl⟩ := Option.map_eq_some_iff.1 same
    rw [eval_neg, value t x isX, Sign.apply]

/-- The sum of two polynomials has at most the greater degree. -/
theorem add (hf : IsPolynomial m f) (hg : IsPolynomial n g) :
    IsPolynomial (max m n) (r.combine .add f g) := by
  obtain ⟨p, degree, value⟩ := hf
  obtain ⟨p', degree', value'⟩ := hg
  refine ⟨p + p', natDegree_add_le_of_le degree degree', fun t q same => ?_⟩
  obtain ⟨x, y, isX, isY, sum⟩ := Reading.exists_of_combine same
  rw [eval_add, value t x isX, value' t y isY, Option.some.inj sum]

/-- The difference of two polynomials has at most the greater degree. -/
theorem subtract (hf : IsPolynomial m f) (hg : IsPolynomial n g) :
    IsPolynomial (max m n) (r.combine .subtract f g) := by
  obtain ⟨p, degree, value⟩ := hf
  obtain ⟨p', degree', value'⟩ := hg
  refine ⟨p - p', natDegree_sub_le_of_le degree degree', fun t q same => ?_⟩
  obtain ⟨x, y, isX, isY, difference⟩ := Reading.exists_of_combine same
  rw [eval_sub, value t x isX, value' t y isY, Option.some.inj difference]

/-- The product of two polynomials has at most the sum of the degrees. -/
theorem multiply (hf : IsPolynomial m f) (hg : IsPolynomial n g) :
    IsPolynomial (m + n) (r.combine .multiply f g) := by
  obtain ⟨p, degree, value⟩ := hf
  obtain ⟨p', degree', value'⟩ := hg
  refine ⟨p * p', natDegree_mul_le_of_le degree degree', fun t q same => ?_⟩
  obtain ⟨x, y, isX, isY, product⟩ := Reading.exists_of_combine same
  rw [eval_mul, value t x isX, value' t y isY, Option.some.inj product]

/-- A divisor of degree zero has one value wherever it has a value. -/
theorem divide (hf : IsPolynomial n f) (hg : IsPolynomial 0 g) :
    IsPolynomial n (r.combine .divide f g) := by
  obtain ⟨p, degree, value⟩ := hf
  obtain ⟨p', degree', value'⟩ := hg
  have divisor : p' = C (p'.coeff 0) := eq_C_of_natDegree_le_zero degree'
  refine ⟨p * C (p'.coeff 0)⁻¹, ?_, fun t q same => ?_⟩
  · exact natDegree_mul_le_of_le degree (natDegree_C _).le
  · obtain ⟨x, y, isX, isY, quotient⟩ := Reading.exists_of_combine same
    have constant : p'.coeff 0 = y := by
      rw [← value' t y isY, divisor, eval_C, coeff_C_zero]
    rw [Reading.operate] at quotient
    split at quotient
    · cases quotient
    · rw [eval_mul, eval_C, value t x isX, constant, ← Option.some.inj quotient, div_eq_mul_inv]

/-- A power with a natural number as exponent. -/
theorem power (h : IsPolynomial n f) (k : ℕ) :
    IsPolynomial (n * k) (r.combine .power f fun _ => some (k : ℚ)) := by
  obtain ⟨p, degree, value⟩ := h
  refine ⟨p ^ k, ?_, fun t q same => ?_⟩
  · rw [Nat.mul_comm]
    exact natDegree_pow_le_of_le k degree
  · obtain ⟨x, y, isX, isY, raised⟩ := Reading.exists_of_combine same
    cases isY
    rw [Reading.operate, Reading.power_natural] at raised
    rw [eval_pow, value t x isX, Option.some.inj raised]

/-- A coefficient in front of a natural power of the argument. -/
theorem monomial (r : Reading) (c : ℚ) (k : ℕ) :
    IsPolynomial k fun t => (r.power t (k : ℚ)).map (c * ·) := by
  refine ⟨C c * X ^ k, natDegree_C_mul_X_pow_le c k, fun t q same => ?_⟩
  obtain ⟨x, isX, rfl⟩ := Option.map_eq_some_iff.1 same
  rw [Reading.power_natural] at isX
  rw [eval_mul, eval_C, eval_pow, eval_X, Option.some.inj isX]

/-- A coefficient zero leaves nothing of a function. -/
theorem vanishing (f : ℚ → Option ℚ) (n : ℕ) : IsPolynomial n fun t => (f t).map (0 * ·) := by
  refine ⟨0, by rw [natDegree_zero]; exact Nat.zero_le n, fun t q same => ?_⟩
  obtain ⟨x, -, rfl⟩ := Option.map_eq_some_iff.1 same
  rw [eval_zero, zero_mul]

end IsPolynomial

/-! ## Trees -/

namespace Expr

variable {r : Reading} {v : String} {e left right : Expr} {n : ℕ}

/-- A part without the variable has one value, whatever the value of the variable. -/
theorem isPolynomial_of_constant (free : e.mentions v = false) (n : ℕ) :
    IsPolynomial n fun t => e.valueAt r v t := by
  cases e with
  | number value => exact .constant _ n
  | «variable» name term =>
    have other : ¬name = v := beq_eq_false_iff_ne.1 free
    cases term <;> simp only [valueAt, if_neg other] <;> exact .constant _ n
  | signed sign operand =>
    rw [mentions] at free
    simp only [valueAt, free, Bool.false_eq_true, if_false]
    exact .constant _ n
  | binary op left right =>
    rw [mentions] at free
    simp only [valueAt, free, Bool.false_eq_true, if_false]
    exact .constant _ n
  | call name args =>
    simp only [valueAt, free, Bool.false_eq_true, if_false]
    exact .constant _ n
  | vector items => exact .constant none n
  | matrix columns => exact .constant none n
  | definition name params body => exact .constant none n

/-- A power of the variable with a coefficient is a monomial, or it vanishes. -/
theorem isPolynomial_variable {term : Option Monomial}
    (degree : (Expr.variable v term).degree? v = some n) :
    IsPolynomial n fun t => (Expr.variable v term).valueAt r v t := by
  cases term with
  | none =>
    rw [degree?, if_neg (not_not.2 rfl)] at degree
    cases degree
    simp only [valueAt, if_true]
    exact .identity
  | some term =>
    rw [degree?, if_neg (not_not.2 rfl)] at degree
    simp only [valueAt, if_true]
    split at degree
    · next vanishes =>
      rw [Decimal.toRat_of_isZero vanishes]
      exact .vanishing _ n
    · rw [(wholeExponent?_eq_some_iff.1 degree).2.1]
      exact .monomial r _ n

/-- An operation on polynomials is a polynomial if it has a degree. -/
theorem isPolynomial_binary {op : Operator}
    (mentioned : (Expr.binary op left right).mentions v = true)
    (degree : (Expr.binary op left right).degree? v = some n)
    (ih : ∀ {a}, left.degree? v = some a → IsPolynomial a fun t => left.valueAt r v t)
    (ih' : ∀ {b}, right.degree? v = some b → IsPolynomial b fun t => right.valueAt r v t) :
    IsPolynomial n fun t => (Expr.binary op left right).valueAt r v t := by
  have values : (fun t => (Expr.binary op left right).valueAt r v t) =
      r.combine op (fun t => left.valueAt r v t) fun t => right.valueAt r v t := by
    rw [mentions] at mentioned
    funext t
    rw [valueAt, if_pos mentioned, Reading.combine]
  rw [values]
  cases binaryDegree_of_degree? degree with
  | add onLeft onRight same =>
    rw [same]
    exact (ih onLeft).add (ih' onRight)
  | subtract onLeft onRight same =>
    rw [same]
    exact (ih onLeft).subtract (ih' onRight)
  | multiply onLeft onRight same _ =>
    rw [same]
    exact (ih onLeft).multiply (ih' onRight)
  | divide onLeft onRight => exact (ih onLeft).divide (ih' onRight)
  | constantPower freeLeft freeRight _ =>
    rw [mentions, freeLeft, freeRight] at mentioned
    cases mentioned
  | power isNumber onLeft whole same _ =>
    subst isNumber
    rw [same]
    simp only [valueAt, (wholeExponent?_eq_some_iff.1 whole).2.1]
    exact (ih onLeft).power _

/-- A tree with a degree has the values of a polynomial of that degree at most. -/
theorem isPolynomial_of_degree? : ∀ {e : Expr} {n : ℕ}, e.degree? v = some n →
    IsPolynomial n fun t => e.valueAt r v t
  | .number _, n, _ => isPolynomial_of_constant rfl n
  | .variable name term, n, degree => by
    by_cases own : name = v
    · subst own
      exact isPolynomial_variable degree
    · have free : (Expr.variable name term).mentions v = false := beq_eq_false_iff_ne.2 own
      exact isPolynomial_of_constant free n
  | .signed sign operand, n, degree => by
    cases mentioned : operand.mentions v with
    | false =>
      have free : (Expr.signed sign operand).mentions v = false := mentioned
      exact isPolynomial_of_constant free n
    | true =>
      simp only [valueAt, mentioned, if_true]
      exact (isPolynomial_of_degree? (e := operand) degree).signed sign
  | .binary op left right, n, degree => by
    cases mentioned : (Expr.binary op left right).mentions v with
    | false => exact isPolynomial_of_constant mentioned n
    | true =>
      exact isPolynomial_binary mentioned degree (fun onLeft => isPolynomial_of_degree? onLeft)
        fun onRight => isPolynomial_of_degree? onRight
  | .call name args, n, degree => by
    rw [degree?] at degree
    split at degree
    · cases degree
    · next free => exact isPolynomial_of_constant (eq_false_of_ne_true free) n
  | .vector _, _, degree => by cases degree
  | .matrix _, _, degree => by cases degree
  | .definition _ _ _, _, degree => by cases degree

/-- The degree is sound: whatever numbers the other names have and whatever the parts without the
variable stand for, a tree with a degree has, where it has a value, that of one polynomial of this
degree at most. -/
theorem exists_polynomial_of_degree? (degree : e.degree? v = some n) (r : Reading) :
    ∃ p : ℚ[X], p.natDegree ≤ n ∧ ∀ t q, e.valueAt r v t = some q → p.eval t = q :=
  isPolynomial_of_degree? degree

/-- The tree `(x + 1) ^ 2 / x ^ 0 - 3y` has degree two, and the value 7 where `x` and `y` are 3. -/
theorem exists_polynomial_of_degree?_quotient :
    let r : Reading := ⟨fun _ => 3, fun _ => some 9, fun _ _ => none⟩
    let square : Expr := .binary .power (.binary .add (plain "x") (.number .one)) (.number .two)
    let e : Expr := .binary .subtract
      (.binary .divide square (.binary .power (plain "x") (.number .zero)))
      (.binary .multiply (.number .three) (plain "y"))
    e.degree? "x" = some 2 ∧ e.valueAt r "x" 3 = some 7 ∧
      ∃ p : ℚ[X], p.natDegree ≤ 2 ∧ ∀ t q, e.valueAt r "x" t = some q → p.eval t = q := by
  intro r square e
  have degree : e.degree? "x" = some 2 := by decide
  have value : e.valueAt r "x" 3 = some 7 := by decide +kernel
  exact ⟨degree, value, exists_polynomial_of_degree? degree r⟩

end Expr

end Reckon
