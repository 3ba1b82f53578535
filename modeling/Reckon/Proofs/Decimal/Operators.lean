import Reckon.Arithmetic
import Reckon.Proofs.Comparison

/-!
# Operators by value

Operators on equal numbers agree: what one pair of operands gives, the other pair gives as well, and
where one pair has no result, neither has the other. Powers need a word of their own. With an
exponent that is an integer below 1024 in magnitude they depend on the numbers only; any other power
may depend on how its operands are scaled.
-/

namespace Reckon

namespace Decimal

/-- Whatever the first computation gives, the second one gives the same number. -/
def Agree (first second : Except Fault Decimal) : Prop :=
  ∀ v, first = .ok v → ∃ v', second = .ok v' ∧ v'.toRat = v.toRat

/-- A power with a natural exponent of 64 bits is taken by squaring. -/
theorem power_natural {base v : Decimal} {n : Nat} (small : n < 2 ^ 63)
    (value : base.pow? n = some v) (lt : n < 2 ^ 96) (le : 0 ≤ 28) :
    base.power ⟨false, n, 0, lt, le⟩ = .ok v := by
  have integer : (⟨false, n, 0, lt, le⟩ : Decimal).isInteger = true := by
    simp [isInteger, Nat.mod_one]
  have whole : (⟨false, n, 0, lt, le⟩ : Decimal).truncate = n := by
    simp [truncate]
  have inside : ¬((n : Int) < leastInt64 ∨ 2 ^ 63 ≤ (n : Int)) := by
    rw [leastInt64]
    omega
  simp only [power, integer, whole, if_true, if_neg inside, Int.natCast_nonneg,
    Int.toNat_natCast, value]
  rfl

/-- The power depends on nothing but the values of base and exponent. -/
def PowerByValue (base exponent : Decimal) : Prop :=
  ∀ base' exponent' : Decimal, base'.toRat = base.toRat → exponent'.toRat = exponent.toRat →
    Agree (base.power exponent) (base'.power exponent')

/-- Whether the exponent is an integer below 1024 in magnitude. -/
def isSmallInteger (exponent : Decimal) : Bool :=
  exponent.isInteger && exponent.truncate.natAbs < 1024

/-- Reciprocals of equal numbers are equal. -/
theorem toRat_reciprocal_congr {x y : Option Decimal} (h : x.map toRat = y.map toRat) :
    (x.bind one.div?).map toRat = (y.bind one.div?).map toRat := by
  rcases cases_of_map_toRat h with ⟨rfl, rfl⟩ | ⟨c, c', rfl, rfl, same⟩
  · rfl
  · exact toRat_div?_congr rfl same

end Decimal

/-! ## Comparisons of operators -/

namespace Lifts

open Decimal (Equals orProblem)

variable {faults : Fault → Fault → Prop}
  {R : {α β : Type} → (α → β → Prop) → Except Fault α → Except Fault β → Prop}

/-- Results that are there together and equal stay related when a missing one is a problem of
arithmetic. -/
theorem orProblem (h : Lifts faults R) (arithmetic : ∀ p p', faults (.arithmetic p) (.arithmetic p'))
    (problem problem' : ArithmeticProblem) {x y : Option Decimal}
    (same : y.map Decimal.toRat = x.map Decimal.toRat) :
    R Equals (Decimal.orProblem problem x) (Decimal.orProblem problem' y) := by
  cases optionRel_equals same with
  | none => exact h.error (arithmetic _ _)
  | some equal => exact h.ok equal

/-- An integer power depends on the value of its exponent, and on its base as far as the powers with
that many factors do. -/
theorem power_of_isInteger (h : Lifts faults R)
    (arithmetic : ∀ p p', faults (.arithmetic p) (.arithmetic p'))
    {base exponent base' exponent' : Decimal} (integer : exponent.isInteger = true)
    (hb : base.Equals base') (he : exponent.Equals exponent')
    (powers : (base'.pow? exponent.truncate.natAbs).map Decimal.toRat =
      (base.pow? exponent.truncate.natAbs).map Decimal.toRat) :
    R Equals (base.power exponent) (base'.power exponent') := by
  have fault : ∀ p p', R Equals (.error (.arithmetic p)) (.error (.arithmetic p')) :=
    fun p p' => h.error (arithmetic p p')
  rw [Decimal.power, Decimal.power, Decimal.isInteger_congr he, Decimal.truncate_congr he,
    Decimal.isZero_congr hb, integer, if_pos rfl, if_pos rfl]
  dsimp only
  split
  · exact fault _ _
  · split
    · next natural =>
      rw [show exponent.truncate.natAbs = exponent.truncate.toNat by omega] at powers
      exact h.orProblem arithmetic _ _ powers
    · split
      · exact fault _ _
      · split
        · exact fault _ _
        · rw [show exponent.truncate.natAbs = (-exponent.truncate).toNat by omega] at powers
          exact h.orProblem arithmetic _ _ (Decimal.toRat_reciprocal_congr powers)

/-- Small integer powers depend on the values only. -/
theorem power_of_isSmallInteger (h : Lifts faults R)
    (arithmetic : ∀ p p', faults (.arithmetic p) (.arithmetic p'))
    {base exponent base' exponent' : Decimal} (small : exponent.isSmallInteger = true)
    (hb : base.Equals base') (he : exponent.Equals exponent') :
    R Equals (base.power exponent) (base'.power exponent') := by
  rw [Decimal.isSmallInteger, Bool.and_eq_true, decide_eq_true_eq] at small
  exact h.power_of_isInteger arithmetic small.1 hb he (Decimal.toRat_pow?_congr small.2 hb)

/-- Every operator agrees on equal numbers, if it does so where it is a power. -/
theorem operator (h : Lifts faults R)
    (arithmetic : ∀ p p', faults (.arithmetic p) (.arithmetic p')) {op : Operator}
    {left right left' right' : Decimal} (hl : left.Equals left') (hr : right.Equals right')
    (power : op = .power → R Equals (left.power right) (left'.power right')) :
    R Equals (op.apply left right) (op.apply left' right') := by
  have truth : ∀ {b b' : Bool}, b = b' →
      R Equals (.ok (Decimal.ofBool b)) (.ok (Decimal.ofBool b')) := by
    rintro b _ rfl
    exact h.ok rfl
  cases op with
  | add => exact h.orProblem arithmetic _ _ (Decimal.toRat_add?_congr hl hr)
  | subtract => exact h.orProblem arithmetic _ _ (Decimal.toRat_sub?_congr hl hr)
  | multiply => exact h.orProblem arithmetic _ _ (Decimal.toRat_mul?_congr hl hr)
  | divide =>
    rw [Operator.apply, Operator.apply, Decimal.isZero_congr hr]
    split
    · exact h.error (arithmetic _ _)
    · exact h.orProblem arithmetic _ _ (Decimal.toRat_div?_congr hl hr)
  | power => exact power rfl
  | greater => exact truth (Decimal.lt_congr hr hl).symm
  | less => exact truth (Decimal.lt_congr hl hr).symm
  | greaterEqual => exact truth (Decimal.le_congr hr hl).symm
  | lessEqual => exact truth (Decimal.le_congr hl hr).symm
  | equal => exact truth (Decimal.same_congr hl hr).symm
  | assign => exact truth (Decimal.same_congr hl hr).symm
  | notEqual => exact truth (congrArg not (Decimal.same_congr hl hr)).symm

end Lifts

/-! ## Agreement -/

open Decimal (Agree PowerByValue)

/-- Small integer powers depend on the values only. -/
theorem Decimal.powerByValue_of_isSmallInteger (base : Decimal) {exponent : Decimal}
    (h : exponent.isSmallInteger = true) : PowerByValue base exponent :=
  fun _ _ => (lifts_extends fun _ _ => True).power_of_isSmallInteger (fun _ _ => trivial) h

/-- Every operator agrees on equal numbers, a power where it depends on the values only. -/
theorem Operator.agree_apply {op : Operator} {left right left' right' : Decimal}
    (hl : left'.toRat = left.toRat) (hr : right'.toRat = right.toRat)
    (power : op = .power → PowerByValue left right) :
    Agree (op.apply left right) (op.apply left' right') :=
  (lifts_extends fun _ _ => True).operator (fun _ _ => trivial) hl hr
    fun isPower => power isPower left' right' hl hr

end Reckon
