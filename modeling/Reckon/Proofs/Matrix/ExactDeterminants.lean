import Reckon.Matrix.Square
import Reckon.Proofs.Matrix.Determinants

/-!
# Determinants without rounding

A run with no error in which only zeros are taken for zero is a run of exact arithmetic. It ends
with the determinant itself: the triangular form is triangular and has the determinant of the
matrix, and the expansion by minors is the signed sum over all permutations.
-/

namespace Reckon

open Reckon.Perturbation

namespace Tolerance

/-- No error, nothing but zero taken for zero, and as much room as decimals have. -/
def exact : Tolerance :=
  ⟨0, 0, (2 ^ 96 : Nat), le_rfl, le_rfl, by norm_num⟩

/-- A result is accepted if it is equal to the rational. -/
theorem accepts_exact (q : ℚ) (result : Except Fault Value) :
    exact.accepts q result = Value.gives q result := by
  cases result with
  | error fault => rfl
  | ok v =>
    cases v with
    | symbolic text => rfl
    | number d =>
      have equal : |d.toRat - q| ≤ 0 ↔ d.toRat = q := by
        rw [abs_nonpos_iff, sub_eq_zero]
      rw [Bool.eq_iff_iff, accepts, Value.gives, decide_eq_true_eq, beq_iff_eq]
      exact equal

/-- Without an error, a value is separated from zero exactly when it is decisive. -/
theorem separates_exact (v : Value) : exact.separates v = v.isDecisive := by
  have zero : |v.rat| ≤ 0 ↔ v.rat = 0 := abs_nonpos_iff
  rw [Bool.eq_iff_iff, separates, Value.isDecisive, Bool.or_eq_true, Bool.or_eq_true,
    decide_eq_true_eq, beq_iff_eq]
  exact or_congr_left zero

/-- Every number has room. -/
theorem admits_exact (v : Value) : exact.admits v = v.isNumeric := by
  cases v with
  | symbolic text => rfl
  | number d =>
    have digits : (d.mantissa : ℚ) ≤ (2 ^ 96 : Nat) := by
      exact_mod_cast d.mantissa_lt.le
    have scale : (1 : ℚ) ≤ 10 ^ d.scale := one_le_pow₀ (by norm_num)
    have small : |(Value.number d).rat| ≤ (2 ^ 96 : Nat) := by
      rw [Value.rat, Value.abs_toRat]
      exact (div_le_self (Nat.cast_nonneg _) scale).trans digits
    rw [admits, Value.isNumeric, Bool.true_and]
    exact decide_eq_true small

/-- Without an error, a determinant does not move. -/
theorem determinantError_exact (n : Nat) : exact.determinantError n = 0 := by
  rw [determinantError, rowError, exact, mul_zero, add_zero, mul_zero]

end Tolerance

namespace Grid

variable {n : Nat} {g : Grid n n} {t : Tolerance}

/-- Every grid of numbers is within the exact tolerance. -/
theorem isWithin_exact (numeric : g.isNumeric = true) : g.isWithin .exact = true := by
  simp only [isWithin, List.all_eq_true, Tolerance.admits_exact]
  exact fun a _ b _ => isNumeric_iff.1 numeric a b

/-- Without an error, an expansion has none. -/
theorem expansionError_exact (n : Nat) : expansionError .exact n = 0 := by
  rw [expansionError, Tolerance.termError, Tolerance.exact, mul_zero, add_zero, mul_zero, mul_zero]

/-- If only zeros are taken for zero, every column is cleared, also one without a pivot. -/
theorem exists_makeTriangular_cleared (nothing : t.zero = 0) (within : g.isWithin t = true)
    (run : passes (triangularWithin t) triangularStep (List.finRange n) g = true) :
    ∃ g', g.makeTriangular = .ok g' ∧ g'.isWithin t = true ∧ ClearedBefore n g'.rational ∧
      |g'.rational.det - g.rational.det| ≤ n * n * t.determinantError n := by
  refine exists_makeTriangular_of_steps (I := fun g' done => ClearedBefore done g'.rational ∧
    |g'.rational.det - g.rational.det| ≤ done * n * t.determinantError n) within ?_ ?_ run
  · refine ⟨fun a b left => absurd left (Nat.not_lt_zero _), ?_⟩
    rw [sub_self, abs_zero, Nat.cast_zero, zero_mul, zero_mul]
  · rintro k g' g'' ⟨cleared, moved⟩ step column
    constructor
    · refine clearedBefore_succ (step.clearedBefore cleared) ?_
      rcases column with zero | tiny
      · exact zero
      · exact fun a below => abs_nonpos_iff.1 (nothing ▸ tiny a below.le)
    · have together := abs_add_le (g''.rational.det - g'.rational.det)
        (g'.rational.det - g.rational.det)
      rw [sub_add_sub_cancel] at together
      push_cast
      linarith [step.det]

end Grid

namespace ValueMatrix

variable {n : Nat}

/-- Triangularization preserves the determinant. If nothing is rounded, everything has room and the
entries that are tested are zero or well away from it, the triangular form has zeros below its
diagonal and the determinant of the matrix. If the products along its diagonal are not rounded
either, the determinant that is returned is that of the matrix as it is shown. -/
theorem triangular_form_correct (g : Grid n n) (positive : 0 < n) (numeric : g.isNumeric = true)
    (exact : passes (Grid.triangularWithin .exact) Grid.triangularStep (List.finRange n) g =
      true) :
    ∃ g' : Grid n n, (ofGrid g positive).makeTriangular = .ok (ofGrid g' positive) ∧
      g'.isNumeric = true ∧ (∀ i j, j < i → g'.rational i j = 0) ∧
      g'.rational.det = g.rational.det ∧
      (g.determinantWithin .exact = true →
        ∃ d : Decimal, d.toRat = g.rational.det ∧
          (ofGrid g positive).determinantTriangular = .ok ((Value.number d).rounded 6)) := by
  obtain ⟨g', made, within', cleared, moved⟩ :=
    Grid.exists_makeTriangular_cleared rfl (Grid.isWithin_exact numeric) exact
  refine ⟨g', ?_, Grid.isNumeric_of_isWithin within', fun i j less => cleared i j j.isLt less, ?_,
    fun run => ?_⟩
  · have square : (ofGrid g positive).makeTriangular =
        g.makeTriangular.map fun triangular => ofGrid triangular positive := dif_pos rfl
    rw [square, made]
    rfl
  · rw [Tolerance.determinantError_exact, mul_zero] at moved
    exact sub_eq_zero.1 (abs_nonpos_iff.1 moved)
  · obtain ⟨d, product, near⟩ := Grid.exists_determinantTriangular run
    rw [Tolerance.determinantError_exact, mul_zero] at near
    refine ⟨d, sub_eq_zero.1 (abs_nonpos_iff.1 near), ?_⟩
    rw [determinantTriangular, ifSquare_ofGrid, product]

/-- A matrix whose first entry is zero: two rows are exchanged and one of them is negated. -/
theorem triangular_form_correct_exchanged :
    let g : Grid 3 3 := ⟨#v[#v[.zero, .ofDigits 4, .ofDigits 2], #v[.ofDigits 2, .one, .one],
      #v[.ofDigits 2, .ofDigits 3, .ofDigits 6]]⟩
    g.isNumeric = true ∧
      passes (Grid.triangularWithin .exact) Grid.triangularStep (List.finRange 3) g = true ∧
      g.determinantWithin .exact = true ∧
      ∃ g' : Grid 3 3, (ofGrid g (by decide)).makeTriangular = .ok (ofGrid g' (by decide)) ∧
        (∀ i j, j < i → g'.rational i j = 0) ∧ g'.rational.det = g.rational.det ∧
        ∃ d : Decimal, d.toRat = g.rational.det ∧
          (ofGrid g (by decide)).determinantTriangular = .ok ((Value.number d).rounded 6) := by
  intro g
  have numeric : g.isNumeric = true := by decide +kernel
  have exact : passes (Grid.triangularWithin .exact) Grid.triangularStep (List.finRange 3) g =
      true := by decide +kernel
  have products : g.determinantWithin .exact = true := by decide +kernel
  obtain ⟨g', made, _, below, same, determinant⟩ :=
    triangular_form_correct g (by decide) numeric exact
  exact ⟨numeric, exact, products, g', made, below, same, determinant products⟩

/-- Expansion by minors is the signed sum over all permutations. If nothing is rounded, everything
has room and the entries that are tested are zero or well away from it, the determinant that is
returned is that sum as it is shown. -/
theorem expansion_correct (g : Grid n n) (positive : 0 < n) (numeric : g.isNumeric = true)
    (exact : g.expandsWithin .exact = true) :
    ∃ d : Decimal,
      d.toRat = ∑ σ : Equiv.Perm (Fin n), Equiv.Perm.sign σ • ∏ i, g.rational (σ i) i ∧
      (ofGrid g positive).determinantCofactor = .ok ((Value.number d).rounded 6) := by
  obtain ⟨v, sum, numeric', near⟩ := Grid.exists_expand (Grid.isWithin_exact numeric) exact
  obtain ⟨d, rfl, _⟩ := Value.standsFor_rat numeric'
  rw [Grid.expansionError_exact] at near
  refine ⟨d, ?_, ?_⟩
  · rw [← Matrix.det_apply]
    exact sub_eq_zero.1 (abs_nonpos_iff.1 near)
  · rw [determinantCofactor, ifSquare_ofGrid, Grid.determinantCofactor, sum]
    rfl

/-- A matrix whose second column is passed over, because its first entry is zero. -/
theorem expansion_correct_passed_over :
    let g : Grid 3 3 := ⟨#v[#v[.ofDigits 2, .one, .ofDigits 3], #v[.zero, .ofDigits 4, .one],
      #v[.ofDigits 5, .ofDigits 2, .ofDigits 6]]⟩
    g.isNumeric = true ∧ g.expandsWithin .exact = true ∧
      ∃ d : Decimal,
        d.toRat = ∑ σ : Equiv.Perm (Fin 3), Equiv.Perm.sign σ • ∏ i, g.rational (σ i) i ∧
        (ofGrid g (by decide)).determinantCofactor = .ok ((Value.number d).rounded 6) := by
  intro g
  have numeric : g.isNumeric = true := by decide +kernel
  have exact : g.expandsWithin .exact = true := by decide +kernel
  exact ⟨numeric, exact, expansion_correct g (by decide) numeric exact⟩

end ValueMatrix

end Reckon
