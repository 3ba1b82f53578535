import Reckon.Proofs.Calculus.Degrees
import Reckon.Proofs.Calculus.FormalDerivative
import Reckon.Proofs.Decimal.Integers
import Reckon.Proofs.Decimal.Places

/-!
# Derivatives have lower degrees

The derivative of a tree with a degree has a degree, a lower one, and that of a tree of degree zero
is the number 0. The constructors of derivatives keep bounds on degrees, and a term with the factor
zero vanishes in them; so each rule of differentiation lowers the degree if the derivatives of the
operands have lower degrees.
-/

namespace Reckon

namespace Value

/-- Rounding changes no natural number. -/
theorem exists_rounded_natural {d : Decimal} {k : Nat} (natural : d.toRat = k) (places : Nat) :
    ∃ r, (number d).rounded places = number r ∧ r.toRat = k := by
  rw [rounded]
  split
  · next small =>
    have none : k = 0 := by
      by_contra positive
      have one : (1 : ℚ) ≤ k := by exact_mod_cast Nat.pos_of_ne_zero positive
      rw [isNegligible_iff, natural, abs_of_nonneg (Nat.cast_nonneg k)] at small
      have := one.trans small
      norm_num at this
    exact ⟨.zero, rfl, by rw [none, Decimal.toRat_zero, Nat.cast_zero]⟩
  · refine ⟨_, rfl, ?_⟩
    have integer := Decimal.isInteger_of_toRat (natural.trans (Int.cast_natCast k).symm)
    have whole : 10 ^ d.scale ∣ d.mantissa := Nat.dvd_of_mod_eq_zero (beq_iff_eq.1 integer)
    have behind : 10 ^ (d.scale - places) ∣ d.mantissa :=
      (Nat.pow_dvd_pow 10 (Nat.sub_le _ _)).trans whole
    rw [Decimal.toRat_normalize, Decimal.toRat_roundTo_of_dvd behind, natural]

end Value

namespace Expr

variable {v : String} {a b e f g df dg : Expr} {k m n : Nat}

/-! ## The constructors keep bounds -/

namespace DegreeAtMost

/-- The negated tree is of the same degree. -/
theorem negated (h : DegreeAtMost v n e) : DegreeAtMost v n e.negated := by
  unfold Expr.negated
  split
  · exact degreeAtMost_number v n _
  · exact h
  · exact h.signed .negative

/-- The simplified sum is of no greater degree than both operands. -/
theorem plus (ha : DegreeAtMost v n a) (hb : DegreeAtMost v n b) : DegreeAtMost v n (plus a b) := by
  unfold Expr.plus
  split
  · split
    · exact hb
    · split
      · exact ha
      · split
        · exact degreeAtMost_number v n _
        · exact ha.add hb
  · split
    · exact hb
    · exact ha.add hb
  · split
    · exact ha
    · split
      · exact ha.subtract (degreeAtMost_number v n _)
      · exact ha.add hb
  · exact ha.add hb

/-- The simplified difference is of no greater degree than both operands. -/
theorem minus (ha : DegreeAtMost v n a) (hb : DegreeAtMost v n b) :
    DegreeAtMost v n (minus a b) := by
  unfold Expr.minus
  split
  · split
    · exact ha
    · split
      · exact hb.negated
      · split
        · exact degreeAtMost_number v n _
        · exact ha.subtract hb
  · split
    · exact hb.negated
    · exact ha.subtract hb
  · split
    · exact ha
    · split
      · exact ha.add (degreeAtMost_number v n _)
      · exact ha.subtract hb
  · exact ha.subtract hb

/-- A tree with a number in front is of no lower degree than the tree behind the number. -/
theorem of_multiply_number {c : Decimal} (h : DegreeAtMost v n (.binary .multiply (.number c) e)) :
    DegreeAtMost v n e := by
  obtain ⟨m, degree, le⟩ := h
  cases binaryDegree_of_degree? degree with
  | multiply first second same _ =>
    cases first
    exact ⟨_, second, by omega⟩

/-- A factor that is a number does not count, wherever it is multiplied in. -/
theorem scaled (c : Decimal) (h : DegreeAtMost v n e) : DegreeAtMost v n (scaled c e) := by
  fun_induction Expr.scaled c e with
  | case1 => exact degreeAtMost_number v n _
  | case2 => exact h
  | case3 => exact degreeAtMost_number v n _
  | case4 => exact degreeAtMost_number v n _
  | case5 => exact h.multiply_number _
  | case6 _ _ _ _ _ _ _ _ ih => exact ih h.of_multiply_number
  | case7 => exact h.multiply_number _
  | case8 => exact h.multiply_number _

/-- The degree of the simplified product is at most the sum of the degrees. -/
theorem times (ha : DegreeAtMost v m a) (hb : DegreeAtMost v n b) (within : m + n < 2 ^ 32) :
    DegreeAtMost v (m + n) (times a b) := by
  unfold Expr.times
  split
  · exact (hb.scaled _).mono (Nat.le_add_left n m)
  · exact (ha.scaled _).mono (Nat.le_add_right m n)
  · exact ha.multiply hb within

/-- Dividing by a constant does not raise the degree. -/
theorem dividedBy (ha : DegreeAtMost v n a) (hb : DegreeAtMost v 0 b) :
    DegreeAtMost v n (dividedBy a b) := by
  unfold Expr.dividedBy
  split
  · exact degreeAtMost_number v n _
  · split
    · exact ha
    · split
      · split
        · exact degreeAtMost_number v n _
        · exact ha.divide hb
      · exact ha.divide hb

/-- The simplified power with a whole exponent has at most that many times the degree. -/
theorem toThe (h : DegreeAtMost v n e) {exponent : Decimal}
    (whole : wholeExponent? exponent = some k) (within : n * k < 2 ^ 32) :
    DegreeAtMost v (n * k) (toThe e (.number exponent)) := by
  unfold Expr.toThe
  split
  · exact degreeAtMost_number v _ _
  · split
    · next one =>
      have value : exponent.toRat = 1 := by
        rw [← Decimal.toRat_one]
        exact Decimal.same_iff.1 one
      have single : k = 1 := by
        rw [(wholeExponent?_eq_some_iff.1 whole).2.1] at value
        exact_mod_cast value
      rw [single, Nat.mul_one]
      exact h
    · exact h.power whole within

end DegreeAtMost

/-! ## Lower degrees -/

/-- The tree is of a lower degree than `n`; it is the number 0 if there is no lower one. -/
def Lower (v : String) : Nat → Expr → Prop
  | 0, d => IsZeroNumber d
  | n + 1, d => DegreeAtMost v n d

/-- Zero is of every degree. -/
theorem IsZeroNumber.degreeAtMost {d : Expr} (h : IsZeroNumber d) (v : String) (n : Nat) :
    DegreeAtMost v n d := by
  obtain ⟨z, rfl, -⟩ := h
  exact degreeAtMost_number v n z

/-- Zero is of a lower degree than any. -/
theorem IsZeroNumber.lower {d : Expr} (h : IsZeroNumber d) (v : String) (n : Nat) :
    Lower v n d := by
  cases n with
  | zero => exact h
  | succ n => exact h.degreeAtMost v n

/-- The tree of zero is of a lower degree than any. -/
theorem lower_zero (v : String) (n : Nat) : Lower v n zero :=
  isZeroNumber_zero.lower v n

namespace Lower

/-- What is of a lower degree than one bound is so for every greater one. -/
theorem mono {d : Expr} (h : Lower v m d) (le : m ≤ n) : Lower v n d := by
  cases m with
  | zero => exact IsZeroNumber.lower h v n
  | succ m =>
    cases n with
    | zero => exact absurd le (Nat.not_succ_le_zero m)
    | succ n => exact DegreeAtMost.mono h (Nat.le_of_succ_le_succ le)

/-- The negated tree is of a lower degree as well. -/
theorem negated {d : Expr} (h : Lower v n d) : Lower v n d.negated := by
  cases n with
  | zero => exact IsZeroNumber.negated h
  | succ n => exact DegreeAtMost.negated h

/-- The sum of two trees of lower degree is of lower degree. -/
theorem plus (hf : Lower v n df) (hg : Lower v n dg) : Lower v n (plus df dg) := by
  cases n with
  | zero => exact IsZeroNumber.plus hf hg
  | succ n => exact DegreeAtMost.plus hf hg

/-- The difference of two trees of lower degree is of lower degree. -/
theorem minus (hf : Lower v n df) (hg : Lower v n dg) : Lower v n (minus df dg) := by
  cases n with
  | zero => exact IsZeroNumber.minus hf hg
  | succ n => exact DegreeAtMost.minus hf hg

/-- A factor keeps the other one lower. If the other one is 0, the product vanishes. -/
theorem times_right (hf : Lower v m df) (hg : DegreeAtMost v n g) (within : m + n < 2 ^ 32) :
    Lower v (m + n) (times df g) := by
  cases m with
  | zero =>
    rw [IsZeroNumber.times_left hf]
    exact lower_zero v _
  | succ m =>
    rw [Nat.succ_add]
    exact DegreeAtMost.times hf hg (by omega)

/-- A product is of a lower degree than the degrees say when one of its factors is. -/
theorem times_left (hf : DegreeAtMost v m f) (hg : Lower v n dg) (within : m + n < 2 ^ 32) :
    Lower v (m + n) (times f dg) := by
  cases n with
  | zero =>
    rw [IsZeroNumber.times_right hg]
    exact lower_zero v _
  | succ n => exact DegreeAtMost.times hf hg (by omega)

/-- A divisor of degree zero keeps the dividend lower. -/
theorem dividedBy (hf : Lower v n df) (hg : DegreeAtMost v 0 g) :
    Lower v n (dividedBy df g) := by
  cases n with
  | zero =>
    rw [IsZeroNumber.dividedBy hf]
    exact lower_zero v _
  | succ n => exact DegreeAtMost.dividedBy hf hg

end Lower

namespace Setting

variable {s : Setting} {d : Expr} {depth : Nat} {belowMinus : Bool}

/-! ## Kept parts -/

/-- A part is kept as the number that it is rounded to, or as it is. -/
theorem fold_eq_ok (folds : s.fold e = .ok f) : ∃ value, e.eval s.settings s.scope = .ok value ∧
    ((∃ r, value.rounded s.settings.precision = .number r ∧ f = .number r) ∨
      ((∀ r, value.rounded s.settings.precision ≠ .number r) ∧ f = e)) := by
  unfold fold at folds
  split at folds
  · cases folds
  · next value isValue =>
    refine ⟨value, isValue, ?_⟩
    split at folds
    · next r isNumber => exact .inl ⟨r, isNumber, (Except.ok.inj folds).symm⟩
    · next text isText =>
      refine .inr ⟨fun r isNumber => ?_, (Except.ok.inj folds).symm⟩
      cases isText.symm.trans isNumber

/-- A part that is kept has no higher degree than the part. -/
theorem degreeAtMost_fold (folds : s.fold e = .ok f) (h : DegreeAtMost v n e) :
    DegreeAtMost v n f := by
  obtain ⟨value, -, ⟨r, -, rfl⟩ | ⟨-, rfl⟩⟩ := fold_eq_ok folds
  · exact degreeAtMost_number v n r
  · exact h

/-- A natural number is kept as the number that it is. -/
theorem exists_of_fold_natural {value : Decimal} (natural : value.toRat = k)
    (folds : s.fold (.number value) = .ok f) : ∃ r, f = .number r ∧ r.toRat = k := by
  obtain ⟨result, isResult, kept⟩ := fold_eq_ok folds
  obtain rfl : result = .number value := evalWithin_number_eq_ok.1 isResult
  obtain ⟨r, rounded, same⟩ := Value.exists_rounded_natural natural s.settings.precision
  rcases kept with ⟨r', rounded', rfl⟩ | ⟨noNumber, -⟩
  · cases rounded.symm.trans rounded'
    exact ⟨r, rfl, same⟩
  · exact absurd rounded (noNumber r)

/-- One less than a natural number above zero is a natural number. -/
theorem exists_of_lowered_natural {value : Decimal} (natural : value.toRat = (k + 1 : ℕ))
    (within : k < 2 ^ 32) (less : lowered (.number value) = .ok d) :
    ∃ r, d = .number r ∧ wholeExponent? r = some k := by
  rw [lowered, lessOne] at less
  split at less
  · next lower difference =>
    cases less
    have integer := Decimal.isInteger_of_toRat (natural.trans (Int.cast_natCast (k + 1)).symm)
    have exact := Decimal.subtractsExactly_one integer
    have value : lower.toRat = k := by
      rw [exact lower difference, natural, Decimal.toRat_one, Nat.cast_add, Nat.cast_one,
        add_sub_cancel_right]
    exact ⟨lower.normalize, rfl, wholeExponent?_normalize value within⟩
  · cases less

/-! ## The rules -/

/-- A product with zero on the left is zero. -/
theorem isZero_of_mul? {x y z : Decimal} (zero : x.isZero = true) (product : x.mul? y = some z) :
    z.isZero = true := by
  rw [Decimal.mul?, zero, Bool.true_or, Bool.true_or, if_pos rfl] at product
  cases product
  rfl

/-- The derivative of a power of the variable has the exponent less one, or it vanishes. -/
theorem lower_deriveVariable {term : Option Monomial}
    (degree : (Expr.variable s.variableName term).degree? s.variableName = some n)
    (step : s.deriveVariable belowMinus s.variableName term = .ok d) :
    Lower s.variableName n d := by
  cases term with
  | none =>
    rw [degree?, if_neg (not_not.2 rfl)] at degree
    rw [deriveVariable, if_neg (not_not.2 rfl)] at step
    cases degree
    cases step
    exact degreeAtMost_number _ 0 _
  | some term =>
    rw [degree?, if_neg (not_not.2 rfl)] at degree
    rw [deriveVariable, if_neg (not_not.2 rfl)] at step
    split at step
    · cases step
      exact lower_zero _ n
    · next nonzero =>
      split at step
      · cases step
      · next coefficient product =>
        obtain ⟨exponent, less, made⟩ := bind_eq_ok.1 step
        cases made
        split at degree
        · next vanishes =>
          have factor : IsZeroNumber (ofNumber coefficient) :=
            ⟨_, rfl, (Decimal.isZero_congr (Decimal.toRat_normalize coefficient)).trans
              (isZero_of_mul? vanishes product)⟩
          rw [factor.times_left]
          exact lower_zero _ n
        · obtain ⟨-, natural, within⟩ := wholeExponent?_eq_some_iff.1 degree
          cases n with
          | zero =>
            have isZero := Decimal.isZero_of_toRat_eq_zero (natural.trans Nat.cast_zero)
            exact absurd isZero nonzero
          | succ k =>
            have lowers : lowered (.number term.exponent) = .ok (ofNumber exponent) := by
              rw [lowered, less]
              rfl
            obtain ⟨r, same, whole⟩ :=
              exists_of_lowered_natural natural (Nat.lt_of_succ_lt within) lowers
            rw [same]
            have power := (degreeAtMost_plain s.variableName s.variableName).toThe whole (by omega)
            have product := (degreeAtMost_number s.variableName 0 coefficient.normalize).times power
              (by omega)
            exact product.mono (by omega)

/-- A product of kept operands and lower derivatives is lower. -/
theorem lower_product (hf : DegreeAtMost v m f) (hg : DegreeAtMost v n g) (hdf : Lower v m df)
    (hdg : Lower v n dg) (within : m + n < 2 ^ 32) :
    Lower v (m + n) (plus (times df g) (times f dg)) :=
  (hdf.times_right hg within).plus (.times_left hf hdg within)

/-- A quotient by a divisor of degree zero is lower, also if the divisor mentions the variable. -/
theorem lower_quotient (hf : DegreeAtMost v n f) (hg : DegreeAtMost v 0 g) (hdf : Lower v n df)
    (hdg : Lower v 0 dg) (within : n < 2 ^ 32) :
    Lower v n (dividedBy (minus (times df g) (times f dg)) (toThe g (ofNumber .two))) := by
  have two : wholeExponent? Decimal.two.normalize = some 2 := by decide
  have square : DegreeAtMost v 0 (toThe g (ofNumber .two)) := by
    have power := hg.toThe two (by decide)
    rw [Nat.zero_mul] at power
    exact power
  have left : Lower v n (times df g) := hdf.times_right hg within
  have right : Lower v n (times f dg) := Lower.times_left hf hdg within
  exact (left.minus right).dividedBy square

/-- The exponent of a power is one less in its derivative, and the derivative of the base is lower
than the base. -/
theorem lower_power {base exponent lower : Expr} {value : Decimal}
    (whole : wholeExponent? value = some k) (keptExponent : s.fold (.number value) = .ok exponent)
    (less : lowered exponent = .ok lower) (hf : DegreeAtMost v n base) (hdf : Lower v n df)
    (within : n * k < 2 ^ 32) :
    Lower v (n * k) (times (times exponent (toThe base lower)) df) := by
  obtain ⟨-, natural, small⟩ := wholeExponent?_eq_some_iff.1 whole
  obtain ⟨r, rfl, natural⟩ := exists_of_fold_natural natural keptExponent
  cases n with
  | zero =>
    rw [IsZeroNumber.times_right hdf]
    exact lower_zero v _
  | succ n =>
    cases k with
    | zero =>
      have none : IsZeroNumber (.number r) :=
        ⟨r, rfl, Decimal.isZero_of_toRat_eq_zero (natural.trans Nat.cast_zero)⟩
      rw [none.times_left, isZeroNumber_zero.times_left]
      exact lower_zero v _
    | succ k =>
      obtain ⟨r', rfl, whole'⟩ := exists_of_lowered_natural natural (Nat.lt_of_succ_lt small) less
      have split : (n + 1) * (k + 1) = (n + 1) * k + (n + 1) := Nat.mul_succ _ _
      have power : DegreeAtMost v ((n + 1) * k) (toThe base (.number r')) :=
        hf.toThe whole' (by omega)
      have outer : DegreeAtMost v ((n + 1) * k) (times (.number r) (toThe base (.number r'))) := by
        have product := (degreeAtMost_number v 0 r).times power (by omega)
        exact product.mono (by omega)
      rw [split]
      exact .times_left outer hdf (by omega)

/-- Every operation has a lower derivative if its operands have. -/
theorem lower_binary {op : Operator} {left right : Expr}
    (degree : (Expr.binary op left right).degree? s.variableName = some n)
    (h : s.derive belowMinus depth (.binary op left right) = .ok d)
    (ih : ∀ {a df}, left.degree? s.variableName = some a →
      s.derive false (depth + 1) left = .ok df → Lower s.variableName a df)
    (ih' : ∀ {b dg}, right.degree? s.variableName = some b →
      s.derive false (depth + 1) right = .ok dg → Lower s.variableName b dg) :
    Lower s.variableName n d := by
  have step := step_of_derive h
  cases binaryDegree_of_degree? degree with
  | add onLeft onRight same =>
    obtain ⟨df, dg, first, second, rfl⟩ := step
    rw [same]
    exact ((ih onLeft first).mono (Nat.le_max_left _ _)).plus
      ((ih' onRight second).mono (Nat.le_max_right _ _))
  | subtract onLeft onRight same =>
    obtain ⟨df, dg, first, second, rfl⟩ := step
    rw [same]
    exact ((ih onLeft first).mono (Nat.le_max_left _ _)).minus
      ((ih' onRight second).mono (Nat.le_max_right _ _))
  | multiply onLeft onRight same within =>
    obtain ⟨f, g, df, dg, keptLeft, keptRight, first, second, rfl⟩ := step
    have hf := degreeAtMost_fold keptLeft (degreeAtMost_of_degree? onLeft)
    have hg := degreeAtMost_fold keptRight (degreeAtMost_of_degree? onRight)
    rw [same] at within ⊢
    exact lower_product hf hg (ih onLeft first) (ih' onRight second) within
  | divide onLeft onRight =>
    obtain ⟨f, g, df, keptLeft, keptRight, first, cases⟩ := step
    have hf := degreeAtMost_fold keptLeft (degreeAtMost_of_degree? onLeft)
    have hg := degreeAtMost_fold keptRight (degreeAtMost_of_degree? onRight)
    rcases cases with ⟨-, rfl⟩ | ⟨-, dg, second, rfl⟩
    · exact (ih onLeft first).dividedBy hg
    · exact lower_quotient hf hg (ih onLeft first) (ih' onRight second) (degree?_lt onLeft)
  | constantPower freeLeft freeRight same =>
    have free : (Expr.binary .power left right).mentions s.variableName = false :=
      mentions_binary_eq_false.2 ⟨freeLeft, freeRight⟩
    exact IsZeroNumber.lower (isZeroNumber_of_derive free h) _ n
  | power isNumber onLeft whole same within =>
    subst isNumber
    rcases step with ⟨-, -, rfl⟩ |
      ⟨-, exponent, lower, base, df, keptExponent, less, keptBase, first, rfl⟩ | ⟨-, varies, -⟩
    · exact lower_zero _ n
    · have hf := degreeAtMost_fold keptBase (degreeAtMost_of_degree? onLeft)
      rw [same] at within ⊢
      exact lower_power whole keptExponent less hf (ih onLeft first) within
    · cases varies

/-- Differentiation lowers the degree, at every depth. -/
theorem lower_of_derive (degree : e.degree? s.variableName = some n)
    (h : s.derive belowMinus depth e = .ok d) : Lower s.variableName n d := by
  induction e using hasConstantBase.induct generalizing belowMinus depth d n with
  | case1 sign operand ih =>
    obtain ⟨inner, derived, rfl⟩ := step_of_derive h
    have lower := ih degree derived
    split
    · exact lower
    · exact lower.negated
  | case2 op left right ih ih' => exact lower_binary degree h ih ih'
  | case3 e noSign noOperator =>
    rcases derive_leaf noSign noOperator h with ⟨free, rfl⟩ | ⟨term, rfl, step⟩
    · exact lower_zero _ n
    · exact lower_deriveVariable degree step

/-- The derivative of a tree with a degree is the number 0 if the degree is zero, and else it has a
degree, which is lower. -/
theorem derive_lowers_degree (degree : e.degree? s.variableName = some n)
    (h : s.derive false 0 e = .ok d) :
    (n = 0 → IsZeroNumber d) ∧
      (n ≠ 0 → ∃ m, d.degree? s.variableName = some m ∧ m ≤ n - 1) := by
  have lower := lower_of_derive degree h
  constructor
  · rintro rfl
    exact lower
  · intro positive
    obtain ⟨k, rfl⟩ := Nat.exists_eq_succ_of_ne_zero positive
    exact lower

/-- The derivative of `x ^ 3 / x ^ 0` has degree two, although the divisor mentions the variable. -/
theorem derive_lowers_degree_quotient :
    let s : Setting := ⟨{}, Scope.root.child, "x"⟩
    let power (n : Decimal) : Expr := .binary .power (plain "x") (.number n)
    let e : Expr := .binary .divide (power .three) (power .zero)
    ∃ d, e.degree? "x" = some 3 ∧ s.derive false 0 e = .ok d ∧ d.degree? "x" = some 2 ∧
      (3 = 0 → IsZeroNumber d) ∧ (3 ≠ 0 → ∃ m, d.degree? "x" = some m ∧ m ≤ 3 - 1) := by
  intro s power e
  have degree : e.degree? "x" = some 3 := by decide
  have derived : s.derive false 0 e = .ok (.binary .divide
      (.binary .multiply (.binary .multiply (.number .three) (power .two)) (power .zero))
      (.binary .power (power .zero) (.number .two))) := by decide +kernel
  exact ⟨_, degree, derived, by decide, derive_lowers_degree degree derived⟩

end Setting

end Expr

end Reckon
