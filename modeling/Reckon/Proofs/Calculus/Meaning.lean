import Mathlib.Analysis.SpecialFunctions.Pow.Real
import Reckon.Calculus.Derivative
import Reckon.Proofs.Decimal.Exact

/-!
# What a tree means in exact arithmetic

Every name is given a real number, and a tree then stands for a real number where all its operations
are defined: no quotient by zero, no negative power of zero, and no power of a negative number with
an exponent that is not an integer. A call stands for whatever its function makes of the meanings of
its arguments. The constructors that put derivatives together keep this meaning as long as their
decimal operations are exact.
-/

namespace Reckon

/-! ## Exact operators -/

/-- A real number for every name. -/
abbrev Assignment : Type := String → ℝ

/-- The number that something stands for, where it is defined. -/
abbrev Meaning : Type := Assignment → Option ℝ

/-- What calls of the functions mean, given the meanings of their arguments. -/
abbrev CallMeaning : Type := String → List Meaning → Meaning

namespace Exact

/-- Whether a power has no value among the real numbers. -/
def PowerUndefined (base exponent : ℝ) : Prop :=
  (base = 0 ∧ exponent < 0) ∨ (base < 0 ∧ ∀ n : ℤ, exponent ≠ n)

open scoped Classical in
/-- A power among the real numbers. -/
noncomputable def power (base exponent : ℝ) : Option ℝ :=
  if PowerUndefined base exponent then none else some (base ^ exponent)

open scoped Classical in
/-- The number 1 for what is true and 0 for what is not. -/
noncomputable def truth (p : Prop) : ℝ :=
  if p then 1 else 0

open scoped Classical in
/-- An operator on real numbers. -/
noncomputable def operate (op : Operator) (p q : ℝ) : Option ℝ :=
  match op with
  | .add => some (p + q)
  | .subtract => some (p - q)
  | .multiply => some (p * q)
  | .divide => if q = 0 then none else some (p / q)
  | .power => power p q
  | .greater => some (truth (q < p))
  | .less => some (truth (p < q))
  | .greaterEqual => some (truth (q ≤ p))
  | .lessEqual => some (truth (p ≤ q))
  | .equal | .assign => some (truth (p = q))
  | .notEqual => some (truth (p ≠ q))

/-- A sign in front of a real number. -/
def sign : Sign → ℝ → ℝ
  | .positive, p => p
  | .negative, p => -p

/-- Every number to the power zero is one. -/
theorem power_zero (p : ℝ) : power p 0 = some 1 := by
  have whole : (0 : ℝ) = (0 : ℤ) := by norm_num
  have defined : ¬PowerUndefined p 0 := fun undefined =>
    undefined.elim (fun h => lt_irrefl 0 h.2) fun h => h.2 0 whole
  rw [power, if_neg defined, Real.rpow_zero]

/-- Every number to the power one is itself. -/
theorem power_one (p : ℝ) : power p 1 = some p := by
  have whole : (1 : ℝ) = (1 : ℤ) := by norm_num
  have defined : ¬PowerUndefined p 1 := fun undefined =>
    undefined.elim (fun h => not_lt.2 zero_le_one h.2) fun h => h.2 1 whole
  rw [power, if_neg defined, Real.rpow_one]

/-- The square of a number other than zero. -/
theorem power_two (p : ℝ) : power p 2 = some (p ^ 2) := by
  have whole : (2 : ℝ) = (2 : ℤ) := by norm_num
  have defined : ¬PowerUndefined p 2 := fun undefined =>
    undefined.elim (fun h => not_lt.2 zero_le_two h.2) fun h => h.2 2 whole
  rw [power, if_neg defined, Real.rpow_two]

end Exact

/-! ## Meanings of trees -/

namespace Decimal

/-- The number as a real number. -/
noncomputable def toReal (d : Decimal) : ℝ :=
  d.toRat

/-- Decimals of one rational value stand for one real number. -/
theorem toReal_congr {d d' : Decimal} (h : d.toRat = d'.toRat) : d.toReal = d'.toReal :=
  congrArg Rat.cast h

/-- The decimal zero stands for zero. -/
@[simp] theorem toReal_zero : zero.toReal = 0 := by
  rw [toReal, toRat_zero, Rat.cast_zero]

/-- The decimal one stands for one. -/
@[simp] theorem toReal_one : one.toReal = 1 := by
  rw [toReal, toRat_one, Rat.cast_one]

/-- The decimal two stands for two. -/
@[simp] theorem toReal_two : two.toReal = 2 := by
  rw [toReal, toRat_two, Rat.cast_ofNat]

/-- The decimal minus one stands for minus one. -/
@[simp] theorem toReal_negOne : negOne.toReal = -1 := by
  rw [toReal, toRat_negOne, Rat.cast_neg, Rat.cast_one]

/-- The negated decimal stands for the negated number. -/
theorem toReal_neg (d : Decimal) : d.neg.toReal = -d.toReal := by
  rw [toReal, toReal, toRat_neg, Rat.cast_neg]

/-- Dropping trailing zeros keeps the number that a decimal stands for. -/
@[simp] theorem toReal_normalize (d : Decimal) : d.normalize.toReal = d.toReal :=
  toReal_congr (toRat_normalize d)

/-- A decimal that is tested to be zero stands for zero. -/
theorem toReal_of_isZero {d : Decimal} (h : d.isZero = true) : d.toReal = 0 := by
  rw [toReal, toRat_of_isZero h, Rat.cast_zero]

section

variable {x y z : Decimal}

/-- An exact sum stands for the sum of the numbers. -/
theorem AddsExactly.toReal (h : x.AddsExactly y) (sum : x.add? y = some z) :
    z.toReal = x.toReal + y.toReal := by
  rw [Decimal.toReal, h z sum, Rat.cast_add]
  rfl

/-- An exact difference stands for the difference of the numbers. -/
theorem SubtractsExactly.toReal (h : x.SubtractsExactly y) (difference : x.sub? y = some z) :
    z.toReal = x.toReal - y.toReal := by
  rw [Decimal.toReal, h z difference, Rat.cast_sub]
  rfl

/-- An exact product stands for the product of the numbers. -/
theorem MultipliesExactly.toReal (h : x.MultipliesExactly y) (product : x.mul? y = some z) :
    z.toReal = x.toReal * y.toReal := by
  rw [Decimal.toReal, h z product, Rat.cast_mul]
  rfl

/-- An exact quotient stands for the quotient of the numbers. -/
theorem DividesExactly.toReal (h : x.DividesExactly y) (quotient : x.div? y = some z) :
    z.toReal = x.toReal / y.toReal := by
  rw [Decimal.toReal, h z quotient, Rat.cast_div]
  rfl

end

end Decimal

/-- The meaning of a variable that may carry a monomial. -/
noncomputable def Monomial.meaning (value : ℝ) : Option Monomial → Option ℝ
  | none => some value
  | some term => (Exact.power value term.exponent.toReal).map (term.coefficient.toReal * ·)

namespace Expr

mutual

/-- What a tree stands for. -/
noncomputable def meaning (calls : CallMeaning) : Expr → Meaning
  | .number value => fun _ => some value.toReal
  | .variable name term => fun ρ => Monomial.meaning (ρ name) term
  | .signed sign operand => fun ρ => (operand.meaning calls ρ).map (Exact.sign sign)
  | .binary op left right => fun ρ =>
    (left.meaning calls ρ).bind fun p => (right.meaning calls ρ).bind fun q => Exact.operate op p q
  | .call name args => calls name (meanings calls args)
  | .vector _ => fun _ => none
  | .matrix _ => fun _ => none
  | .definition _ _ _ => fun _ => none

/-- What some trees stand for. -/
noncomputable def meanings (calls : CallMeaning) : List Expr → List Meaning
  | [] => []
  | e :: es => e.meaning calls :: meanings calls es

end

variable {calls : CallMeaning} {ρ : Assignment} {a b e : Expr} {c : Decimal} {p q r : ℝ}

/-! ## One step of meaning -/

/-- A literal means its number, whatever the variables are. -/
@[simp] theorem meaning_number (d : Decimal) :
    (Expr.number d).meaning calls ρ = some d.toReal :=
  rfl

/-- A plain variable means what it is bound to. -/
@[simp] theorem meaning_plain (name : String) :
    (plain name).meaning calls ρ = some (ρ name) :=
  rfl

/-- A signed tree means something exactly when its operand does, and then it means the signed
number. -/
theorem meaning_signed_eq_some {sign : Sign} :
    (Expr.signed sign e).meaning calls ρ = some r ↔
      ∃ p, e.meaning calls ρ = some p ∧ r = Exact.sign sign p := by
  change (e.meaning calls ρ).map (Exact.sign sign) = some r ↔ _
  rw [Option.map_eq_some_iff]
  exact exists_congr fun p => and_congr_right fun _ => eq_comm

/-- A binary tree means something exactly when both operands do and the operation is defined there.
-/
theorem meaning_binary_eq_some {op : Operator} :
    (Expr.binary op a b).meaning calls ρ = some r ↔
      ∃ p q, a.meaning calls ρ = some p ∧ b.meaning calls ρ = some q ∧
        Exact.operate op p q = some r := by
  change ((a.meaning calls ρ).bind fun p => (b.meaning calls ρ).bind fun q =>
    Exact.operate op p q) = some r ↔ _
  simp only [Option.bind_eq_some_iff]
  exact exists_congr fun p => exists_and_left.symm

/-- With both operands given, a binary tree means the operation on their numbers. -/
theorem meaning_binary {op : Operator} (ha : a.meaning calls ρ = some p)
    (hb : b.meaning calls ρ = some q) :
    (Expr.binary op a b).meaning calls ρ = Exact.operate op p q := by
  change ((a.meaning calls ρ).bind fun p => (b.meaning calls ρ).bind fun q =>
    Exact.operate op p q) = _
  rw [ha, Option.bind_some, hb, Option.bind_some]

/-- A tree that is read as a number means that number. -/
theorem eq_of_meaning_number {x : Decimal} (h : e.number? = some x)
    (value : e.meaning calls ρ = some p) : p = x.toReal := by
  cases e with
  | number d =>
    cases h
    rw [meaning_number] at value
    exact (Option.some.inj value).symm
  | _ => cases h

/-! ## Constructors of derivatives -/

/-- The tree made of a decimal means the decimal, also where it is written with a sign. -/
@[simp] theorem meaning_ofNumber (d : Decimal) :
    (ofNumber d).meaning calls ρ = some d.toReal := by
  rw [ofNumber, meaning_number, Decimal.toReal_normalize]

/-- The tree of zero means zero. -/
@[simp] theorem meaning_zero : Expr.zero.meaning calls ρ = some 0 := by
  rw [Expr.zero, meaning_number, Decimal.toReal_zero]

/-- A tree that is a certain number. -/
theorem eq_of_isNumber {d : Decimal} (h : e.isNumber d = true)
    (value : e.meaning calls ρ = some p) : p = d.toReal := by
  unfold isNumber at h
  split at h
  · next own isOwn =>
    rw [eq_of_meaning_number isOwn value, Decimal.toReal_congr (Decimal.same_iff.1 h)]
  · cases h

/-- The negated tree means the negated number. -/
theorem meaning_negated (value : a.meaning calls ρ = some p) :
    a.negated.meaning calls ρ = some (-p) := by
  unfold negated
  split
  · next d =>
    rw [meaning_number] at value
    rw [meaning_ofNumber, Decimal.toReal_neg, Option.some.inj value]
  · obtain ⟨q, inner, rfl⟩ := meaning_signed_eq_some.1 value
    rw [inner, Exact.sign, neg_neg]
  · exact meaning_signed_eq_some.2 ⟨p, value, rfl⟩

/-- Adding numbers is exact. -/
def PlusIsExact (a b : Expr) : Prop :=
  ∀ x ∈ a.number?, ∀ y ∈ b.number?, x.AddsExactly y

/-- The simplified sum means the sum of what its operands mean, as long as the folded constants add
exactly. -/
theorem meaning_plus (exact : PlusIsExact a b) (ha : a.meaning calls ρ = some p)
    (hb : b.meaning calls ρ = some q) : (plus a b).meaning calls ρ = some (p + q) := by
  have sum : (Expr.binary .add a b).meaning calls ρ = some (p + q) := meaning_binary ha hb
  unfold plus
  split
  · next x y hx hy =>
    have isX := eq_of_meaning_number hx ha
    have isY := eq_of_meaning_number hy hb
    split
    · next zero => rw [hb, isX, Decimal.toReal_of_isZero zero, zero_add]
    · split
      · next zero => rw [ha, isY, Decimal.toReal_of_isZero zero, add_zero]
      · split
        · next z result =>
          rw [meaning_ofNumber, (exact x hx y hy).toReal result, isX, isY]
        · exact sum
  · next x hx _ =>
    have isX := eq_of_meaning_number hx ha
    split
    · next zero => rw [hb, isX, Decimal.toReal_of_isZero zero, zero_add]
    · exact sum
  · next y _ hy =>
    have isY := eq_of_meaning_number hy hb
    split
    · next zero => rw [ha, isY, Decimal.toReal_of_isZero zero, add_zero]
    · split
      · rw [meaning_binary ha (meaning_ofNumber y.neg), Exact.operate, Decimal.toReal_neg, isY,
          sub_neg_eq_add]
      · exact sum
  · exact sum

/-- Subtracting numbers is exact. -/
def MinusIsExact (a b : Expr) : Prop :=
  ∀ x ∈ a.number?, ∀ y ∈ b.number?, x.SubtractsExactly y

/-- The simplified difference means the difference of what its operands mean, as long as the folded
constants subtract exactly. -/
theorem meaning_minus (exact : MinusIsExact a b) (ha : a.meaning calls ρ = some p)
    (hb : b.meaning calls ρ = some q) : (minus a b).meaning calls ρ = some (p - q) := by
  have difference : (Expr.binary .subtract a b).meaning calls ρ = some (p - q) :=
    meaning_binary ha hb
  unfold minus
  split
  · next x y hx hy =>
    have isX := eq_of_meaning_number hx ha
    have isY := eq_of_meaning_number hy hb
    split
    · next zero => rw [ha, isY, Decimal.toReal_of_isZero zero, sub_zero]
    · split
      · next zero => rw [meaning_negated hb, isX, Decimal.toReal_of_isZero zero, zero_sub]
      · split
        · next z result =>
          rw [meaning_ofNumber, (exact x hx y hy).toReal result, isX, isY]
        · exact difference
  · next x hx _ =>
    have isX := eq_of_meaning_number hx ha
    split
    · next zero => rw [meaning_negated hb, isX, Decimal.toReal_of_isZero zero, zero_sub]
    · exact difference
  · next y _ hy =>
    have isY := eq_of_meaning_number hy hb
    split
    · next zero => rw [ha, isY, Decimal.toReal_of_isZero zero, sub_zero]
    · split
      · rw [meaning_binary ha (meaning_ofNumber y.neg), Exact.operate, Decimal.toReal_neg, isY,
          sub_eq_add_neg]
      · exact difference
  · exact difference

/-- Whether a number in front of a tree is more than a zero or a one. -/
def needsProduct (c : Decimal) (e : Expr) : Bool :=
  !(c.isZero || e.isNumber .zero) && !c.same .one && !e.isNumber .one

/-- Multiplying a number into a tree is exact. -/
def ScaledIsExact (c : Decimal) : Expr → Prop
  | .number x => needsProduct c (.number x) = true → c.MultipliesExactly x
  | .binary .multiply (.number x) rest =>
    needsProduct c (.binary .multiply (.number x) rest) = true →
      c.MultipliesExactly x ∧ ∀ product ∈ c.mul? x, ScaledIsExact product.normalize rest
  | _ => True

/-- The number is multiplied into each factor that leads a product in turn. -/
theorem meaning_scaled (exact : ScaledIsExact c e) (value : e.meaning calls ρ = some q) :
    (scaled c e).meaning calls ρ = some (c.toReal * q) := by
  have product : (Expr.binary .multiply (.number c) e).meaning calls ρ = some (c.toReal * q) :=
    meaning_binary (meaning_number c) value
  fun_induction scaled c e generalizing q with
  | case1 c e zero =>
    rw [Bool.or_eq_true] at zero
    rw [meaning_zero]
    rcases zero with factor | tree
    · rw [Decimal.toReal_of_isZero factor, zero_mul]
    · rw [eq_of_isNumber tree value, Decimal.toReal_zero, mul_zero]
  | case2 c e _ one =>
    rw [value, Decimal.toReal_congr (Decimal.same_iff.1 one), Decimal.toReal_one, one_mul]
  | case3 c e _ _ one =>
    rw [meaning_number, eq_of_isNumber one value, Decimal.toReal_one, mul_one]
  | case4 c one x z result zero other =>
    have needed : needsProduct c (.number x) = true := by simp [needsProduct, zero, one, other]
    rw [meaning_number] at value
    rw [meaning_ofNumber, (exact needed).toReal result, Option.some.inj value]
  | case5 => exact product
  | case6 c one x rest z result zero other ih =>
    have needed : needsProduct c (.binary .multiply (.number x) rest) = true := by
      simp [needsProduct, zero, one, other]
    obtain ⟨exact, later⟩ := exact needed
    obtain ⟨_, s, number, tail, operated⟩ := meaning_binary_eq_some.1 value
    rw [meaning_number] at number
    have whole : x.toReal * s = q := by
      rw [Exact.operate, ← Option.some.inj number] at operated
      exact Option.some.inj operated
    have folded := ih (later z result) tail (meaning_binary (meaning_number _) tail)
    rw [folded, Decimal.toReal_normalize, exact.toReal result, mul_assoc, whole]
  | case7 => exact product
  | case8 => exact product

/-- Multiplying trees is exact. -/
def TimesIsExact (a b : Expr) : Prop :=
  match a.number?, b.number? with
  | some x, _ => ScaledIsExact x b
  | none, some y => ScaledIsExact y a
  | none, none => True

/-- The simplified product means the product of what its operands mean, as long as the folded
constants multiply exactly. -/
theorem meaning_times (exact : TimesIsExact a b) (ha : a.meaning calls ρ = some p)
    (hb : b.meaning calls ρ = some q) : (times a b).meaning calls ρ = some (p * q) := by
  rw [TimesIsExact] at exact
  unfold times
  split
  · next x y hx =>
    rw [hx] at exact
    rw [meaning_scaled exact hb, eq_of_meaning_number hx ha]
  · next y hx hy =>
    rw [hx, hy] at exact
    rw [meaning_scaled exact ha, eq_of_meaning_number hy hb, mul_comm]
  · exact meaning_binary ha hb

/-- Dividing numbers is exact. -/
def DividedByIsExact (a b : Expr) : Prop :=
  ∀ x ∈ a.number?, ∀ y ∈ b.number?, x.DividesExactly y

/-- The simplified quotient means the quotient of what its operands mean, for a divisor other than
zero and folded constants that divide exactly. -/
theorem meaning_dividedBy (exact : DividedByIsExact a b) (ha : a.meaning calls ρ = some p)
    (hb : b.meaning calls ρ = some q) (nonzero : q ≠ 0) :
    (dividedBy a b).meaning calls ρ = some (p / q) := by
  have quotient : (Expr.binary .divide a b).meaning calls ρ = some (p / q) := by
    rw [meaning_binary ha hb, Exact.operate, if_neg nonzero]
  unfold dividedBy
  split
  · next zero =>
    rw [meaning_zero, eq_of_isNumber zero ha, Decimal.toReal_zero, zero_div]
  · split
    · next one =>
      rw [ha, eq_of_isNumber one hb, Decimal.toReal_one, div_one]
    · split
      · next x y hx hy =>
        split
        · next z result =>
          rw [meaning_ofNumber, (exact x hx y hy).toReal result, eq_of_meaning_number hx ha,
            eq_of_meaning_number hy hb]
        · exact quotient
      · exact quotient

/-- The simplified power means the power of what its operands mean, wherever that power is defined.
-/
theorem meaning_toThe (ha : a.meaning calls ρ = some p) (hb : b.meaning calls ρ = some q)
    (power : Exact.power p q = some r) : (toThe a b).meaning calls ρ = some r := by
  unfold toThe
  split
  · next zero =>
    rw [eq_of_isNumber zero hb, Decimal.toReal_zero, Exact.power_zero] at power
    rw [meaning_ofNumber, Decimal.toReal_one, power]
  · split
    · next one =>
      rw [eq_of_isNumber one hb, Decimal.toReal_one, Exact.power_one] at power
      rw [ha, power]
    · rw [meaning_binary ha hb, Exact.operate, power]

end Expr

end Reckon
