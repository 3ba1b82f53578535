import Reckon.Matrix.Square
import Reckon.Proofs.Matrix.ExpansionRun

/-!
# Both determinants

The two determinants of a matrix are both close to its determinant, and so to each other. They are
shown with six places, which is off by half a millionth each.
-/

namespace Reckon

/-- How far apart the two determinants may be before they are rounded to places. -/
def Tolerance.agreementError (t : Tolerance) (n : Nat) : ℚ :=
  ((n + 1) ^ 2 + n) * t.determinantError n

/-- The expansion takes fewer steps than the triangular form and each is off by less. -/
theorem Grid.expansionError_le (t : Tolerance) (n : Nat) :
    expansionError t n ≤ n * t.determinantError n :=
  mul_le_mul_of_nonneg_left
    (mul_le_mul_of_nonneg_left t.termError_le (Perturbation.sensitivity_nonneg n t.size_nonneg))
    (Nat.cast_nonneg n)

namespace ValueMatrix

variable {n : Nat}

/-- A square matrix has the shape that its operations ask for. -/
theorem ifSquare_ofGrid {α : Type} (g : Grid n n) (positive : 0 < n)
    (problem : Nat → Nat → ShapeProblem) (f : {k : Nat} → Grid k k → Except Fault α) :
    (ofGrid g positive).ifSquare problem f = f g :=
  dif_pos rfl

/-- The two determinants agree. If every operation of both is off by little, the entries taken for
zero are next to zero and no entry grows too large, then both return a number, and the two numbers
are apart by a millionth, for the places that are shown, and by the error of all steps at most. -/
theorem determinants_agree (g : Grid n n) (positive : 0 < n) (t : Tolerance)
    (triangular : g.determinantWithin t = true) (expansion : g.expandsWithin t = true) :
    ∃ v w : Decimal, (ofGrid g positive).determinantTriangular = .ok (.number v) ∧
      (ofGrid g positive).determinantCofactor = .ok (.number w) ∧
      |v.toRat - w.toRat| ≤ 1 / 10 ^ 6 + t.agreementError n ∧
      (t.agreementError n ≤ 9 / 10 ^ 6 → |v.toRat - w.toRat| ≤ 1 / 10 ^ 5) := by
  have within : g.isWithin t = true := by
    rw [Grid.determinantWithin, Bool.and_eq_true, Bool.and_eq_true] at triangular
    exact triangular.1.1
  obtain ⟨d, product, nearProduct⟩ := Grid.exists_determinantTriangular triangular
  obtain ⟨e, sum, numeric, nearSum⟩ := Grid.exists_expand within expansion
  obtain ⟨c, rfl, _⟩ := Value.standsFor_rat numeric
  obtain ⟨v, shownProduct, nearV⟩ := Value.exists_rounded d
  obtain ⟨w, shownSum, nearW⟩ := Value.exists_rounded c
  have nearSum : |c.toRat - g.rational.det| ≤ n * t.determinantError n :=
    nearSum.trans (Grid.expansionError_le t n)
  have close : |v.toRat - w.toRat| ≤ 1 / 10 ^ 6 + t.agreementError n := by
    have unit : (1 : ℚ) / 10 ^ 6 = 1 / (2 * 10 ^ 6) + 1 / (2 * 10 ^ 6) := by norm_num
    rw [Tolerance.agreementError, unit]
    rw [abs_le] at nearProduct nearSum nearV nearW ⊢
    constructor <;> linarith [nearProduct.1, nearProduct.2, nearSum.1, nearSum.2, nearV.1, nearV.2,
      nearW.1, nearW.2]
  refine ⟨v, w, ?_, ?_, close, fun small => close.trans ?_⟩
  · rw [determinantTriangular, ifSquare_ofGrid, product, ← shownProduct]
  · rw [determinantCofactor, ifSquare_ofGrid, Grid.determinantCofactor, sum]
    exact congrArg Except.ok shownSum
  · calc 1 / 10 ^ 6 + t.agreementError n ≤ 1 / 10 ^ 6 + 9 / 10 ^ 6 := by linarith
      _ = 1 / 10 ^ 5 := by norm_num

/-- A matrix in whose elimination thirds are rounded. -/
theorem determinants_agree_thirds :
    let g : Grid 3 3 := ⟨#v[#v[.ofDigits 3, .one, .ofDigits 2], #v[.one, .ofDigits 4, .one],
      #v[.ofDigits 2, .one, .ofDigits 5]]⟩
    let t := Tolerance.fine
    g.determinantWithin t = true ∧ g.expandsWithin t = true ∧
      ∃ v w : Decimal, (ofGrid g (by decide)).determinantTriangular = .ok (.number v) ∧
        (ofGrid g (by decide)).determinantCofactor = .ok (.number w) ∧
        |v.toRat - w.toRat| ≤ 1 / 10 ^ 5 := by
  intro g t
  have triangular : g.determinantWithin t = true := by decide +kernel
  have expansion : g.expandsWithin t = true := by decide +kernel
  obtain ⟨v, w, product, sum, _, close⟩ := determinants_agree g (by decide) t triangular expansion
  exact ⟨triangular, expansion, v, w, product, sum, close (by decide +kernel)⟩

/-- Apart by a thousand: the triangular form keeps a small entry as it stands, but the expansion
passes over it. -/
theorem determinants_disagree :
    let g : Grid 3 3 := ⟨#v[#v[.ofDigits 1 7, .zero, .zero], #v[.zero, .ofDigits 100000, .zero],
      #v[.zero, .zero, .ofDigits 100000]]⟩
    g.isNumeric = true ∧
      ∃ v w : Decimal, (ofGrid g (by decide)).determinantTriangular = .ok (.number v) ∧
        (ofGrid g (by decide)).determinantCofactor = .ok (.number w) ∧
        1 / 10 ^ 5 < |v.toRat - w.toRat| := by
  intro g
  refine ⟨by decide +kernel, ⟨false, 1000, 0, by decide, by decide⟩, .zero, ?_, ?_, ?_⟩
  · decide +kernel
  · decide +kernel
  · decide +kernel

end ValueMatrix

end Reckon
