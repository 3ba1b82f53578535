import Reckon.Proofs.Matrix.Determinants
import Reckon.Proofs.Matrix.ReductionRun

/-!
# Inverses

A matrix whose determinant is next to zero is refused, and one whose determinant is well away from
zero is inverted. Its product with the inverse is next to the identity: the drift of the elimination
and the rounding to places are all that is missing.
-/

namespace Reckon

open Reckon.Perturbation

namespace Grid

variable {n : Nat} {g : Grid n n} {t : Tolerance}

/-! ## The matrix beside the identity -/

/-- The first columns of an augmented grid are those of the grid. -/
theorem entry_augment_castAdd {rows cols more : Nat} (g : Grid rows cols) (h : Grid rows more)
    (i : Fin rows) (j : Fin cols) : (g.augment h).entry i (Fin.castAdd more j) = g.entry i j := by
  simp [entry, augment]

/-- The last columns of an augmented grid are those that were put beside it. -/
theorem entry_augment_natAdd {rows cols more : Nat} (g : Grid rows cols) (h : Grid rows more)
    (i : Fin rows) (j : Fin more) : (g.augment h).entry i (Fin.natAdd cols j) = h.entry i j := by
  simp [entry, augment]

/-- The left half of a grid beside another is the grid. -/
theorem leftHalf_augment (g h : Grid n n) : leftHalf (g.augment h).rational = g.rational := by
  funext i j
  rw [leftHalf, rational, entry_augment_castAdd, rational]

/-- The right half of a grid beside the identity is the identity. -/
theorem rightHalf_augment_identity (g : Grid n n) :
    rightHalf (g.augment (identity n)).rational = 1 := by
  funext i j
  rw [rightHalf, rational, entry_augment_natAdd, identity, entry_ofFn, Matrix.one_apply]
  split <;> decide

/-- The last columns of a grid that has twice as many columns as rows. -/
def lastColumns (g : Grid n (n + n)) : Grid n n :=
  (g.dropColumns n).cast rfl (Nat.add_sub_cancel n n)

/-- A grid under another count of columns has the same entries. -/
theorem entry_cast {rows cols cols' : Nat} (g : Grid rows cols) (same : cols = cols')
    (i : Fin rows) (j : Fin cols') : (g.cast rfl same).entry i j = g.entry i (j.cast same.symm) := by
  subst same
  rfl

/-- The entries of the last columns stand behind the first half. -/
theorem entry_lastColumns (g : Grid n (n + n)) (i j : Fin n) :
    g.lastColumns.entry i j = g.entry i (Fin.natAdd n j) := by
  rw [lastColumns, entry_cast]
  simp [entry, dropColumns, Nat.add_comm]

/-! ## Regular and singular matrices -/

/-- A grid whose determinant is computed within a tolerance is within it. -/
theorem isWithin_of_determinantWithin (run : g.determinantWithin t = true) :
    g.isWithin t = true := by
  rw [determinantWithin, Bool.and_eq_true, Bool.and_eq_true] at run
  exact run.1.1

/-- How far the determinant of the triangular form may be off. -/
def triangularError (t : Tolerance) (n : Nat) : ℚ :=
  (n + 1) ^ 2 * t.determinantError n

/-- A grid is refused as singular when the determinant of its triangular form counts as zero. -/
theorem refuseSingular_eq {v : Value} (product : g.determinantTriangular = .ok v) :
    g.refuseSingular = if v.isZero then .error .singularMatrix else .ok () := by
  rw [refuseSingular, product]
  rfl

/-- A determinant next to zero is refused. -/
theorem refuseSingular_of_small (run : g.determinantWithin t = true)
    (small : |g.rational.det| + triangularError t n < 1 / (2 * 10 ^ 6)) :
    g.refuseSingular = .error .singularMatrix := by
  obtain ⟨d, product, near⟩ := exists_determinantTriangular run
  have zero : ((Value.number d).rounded 6).isZero = true := by
    rw [Value.isZero_rounded_iff]
    have together := abs_add_le (d.toRat - g.rational.det) g.rational.det
    rw [sub_add_cancel] at together
    rw [triangularError] at small
    linarith
  rw [refuseSingular_eq product, zero, if_pos rfl]

/-- A determinant well away from zero is not refused. -/
theorem refuseSingular_of_large (run : g.determinantWithin t = true)
    (large : 1 / (2 * 10 ^ 6) + triangularError t n ≤ |g.rational.det|) :
    g.refuseSingular = .ok () := by
  obtain ⟨d, product, near⟩ := exists_determinantTriangular run
  have other : ((Value.number d).rounded 6).isZero = false := by
    rw [Bool.eq_false_iff, ne_eq, Value.isZero_rounded_iff, not_lt]
    have together := abs_add_le (g.rational.det - d.toRat) d.toRat
    rw [sub_add_cancel, abs_sub_comm] at together
    rw [triangularError] at large
    linarith
  rw [refuseSingular_eq product, other, if_neg Bool.false_ne_true]

/-! ## The inverse -/

/-- How far a row of the product with the inverse may be from that of the identity. -/
def residual (g : Grid n n) (t : Tolerance) (i : Fin n) : ℚ :=
  t.drift n * (1 + n * t.size) + (∑ k, |g.rational i k|) * (1 / (2 * 10 ^ 6))

/-- Rounding the entries of a matrix to places adds half a unit for each entry of a row to what its
product with another one is off by. -/
theorem abs_mul_sub_le_of_rounded {A R X : Matrix (Fin n) (Fin n) ℚ} {unit off : ℚ} {i j : Fin n}
    {q : ℚ} (near : |(A * R) i j - q| ≤ off) (rounded : ∀ k, |X k j - R k j| ≤ unit) :
    |(A * X) i j - q| ≤ off + (∑ k, |A i k|) * unit := by
  have difference : (A * X) i j - (A * R) i j = ∑ k, A i k * (X k j - R k j) := by
    rw [Matrix.mul_apply, Matrix.mul_apply, ← Finset.sum_sub_distrib]
    exact Finset.sum_congr rfl fun k _ => (mul_sub _ _ _).symm
  have bound : |(A * X) i j - (A * R) i j| ≤ (∑ k, |A i k|) * unit := by
    rw [difference, Finset.sum_mul]
    refine (Finset.abs_sum_le_sum_abs _ _).trans (Finset.sum_le_sum fun k _ => ?_)
    rw [abs_mul]
    exact mul_le_mul_of_nonneg_left (rounded k) (abs_nonneg _)
  have together := abs_add_le ((A * X) i j - (A * R) i j) ((A * R) i j - q)
  rw [sub_add_sub_cancel] at together
  linarith

/-- Reduction beside the identity leaves a matrix whose product with the given one is next to the
identity. -/
theorem exists_rowReduce_augment
    (run : (g.augment (identity n)).reducesWithin t (List.finRange (n + n)) 0 = true)
    (little : t.drift n ≤ 1)
    (regular : pivotlessBound n t.size (t.drift n) t.zero < |g.rational.det|) :
    ∃ reduced, (g.augment (identity n)).rowReduce = .ok reduced ∧
      (∀ i j, (reduced.lastColumns.entry i j).isNumeric = true) ∧
      ∀ i j, |(g.rational * reduced.lastColumns.rational) i j - (1 : Matrix _ _ ℚ) i j| ≤
        g.residual t i := by
  have within := isWithin_iff.1 (isWithin_of_reducesWithin run)
  rw [← leftHalf_augment g (identity n)] at regular
  obtain ⟨g', P, done, within', combines⟩ := exists_reduceColumns (fun a c => (within a c).2) little
    regular n.zero_le (P := fun i => Pi.single i 1) (by
      rw [Nat.cast_zero, zero_mul]
      exact combines_single _) run
  have entries := isWithin_iff.1 within'
  have shown : ∀ i j, ∃ r : Decimal, g'.prettify.lastColumns.entry i j = .number r ∧
      |r.toRat - rightHalf g'.rational i j| ≤ 1 / (2 * 10 ^ 6) := by
    intro i j
    obtain ⟨d, number, same⟩ := Value.standsFor_rat (entries i (Fin.natAdd n j)).1
    obtain ⟨r, rounded, near⟩ := Value.exists_rounded d
    refine ⟨r, ?_, ?_⟩
    · rw [entry_lastColumns, prettify, entry_map, number]
      exact rounded
    · rw [rightHalf, rational, ← same]
      exact near
  refine ⟨g'.prettify, ?_, fun i j => ?_, fun i j => ?_⟩
  · rw [List.drop_zero] at done
    rw [rowReduce, done]
    rfl
  · obtain ⟨r, number, _⟩ := shown i j
    rw [number]
    rfl
  · have product := combines.abs_mul_sub_le (fun a c => (entries a c).2) i j
    rw [leftHalf_augment, rightHalf_augment_identity] at product
    refine abs_mul_sub_le_of_rounded product fun k => ?_
    obtain ⟨r, number, near⟩ := shown k j
    rw [rational, number]
    exact near

end Grid

namespace ValueMatrix

variable {n : Nat}

/-- A matrix of a grid does not depend on how its count of columns is given. -/
theorem ofGrid_cast {rows cols cols' : Nat} (g : Grid rows cols) (same : cols = cols')
    (positive : 0 < cols) (positive' : 0 < cols') :
    ofGrid g positive = ofGrid (g.cast rfl same) positive' := by
  subst same
  rfl

/-- Inverting a square matrix is inverting its grid. -/
theorem invert_ofGrid (g : Grid n n) (positive : 0 < n) :
    (ofGrid g positive).invert =
      g.invert.map fun inverse => ofGrid inverse (by omega) :=
  dif_pos rfl

/-- Inverses are correct. If every operation is off by little, the entries taken for zero are next
to zero and no entry grows too large, then a matrix whose determinant is next to zero is refused as
singular, and one whose determinant is well away from zero has an inverse: its product with the
matrix is off from the identity by the error of all steps and by half a millionth for each entry of
a row, for the places that are shown. -/
theorem inverse_correct (g : Grid n n) (positive : 0 < n) (t : Tolerance)
    (triangular : g.determinantWithin t = true) :
    (|g.rational.det| + Grid.triangularError t n < 1 / (2 * 10 ^ 6) →
      (ofGrid g positive).invert = .error .singularMatrix) ∧
    ((g.augment (Grid.identity n)).reducesWithin t (List.finRange (n + n)) 0 = true →
      t.drift n ≤ 1 →
      1 / (2 * 10 ^ 6) + Grid.triangularError t n ≤ |g.rational.det| →
      pivotlessBound n t.size (t.drift n) t.zero < |g.rational.det| →
      ∃ inverse : Grid n n, (ofGrid g positive).invert = .ok (ofGrid inverse positive) ∧
        (∀ i j, (inverse.entry i j).isNumeric = true) ∧
        ∀ i j, |(g.rational * inverse.rational) i j - (1 : Matrix _ _ ℚ) i j| ≤
          g.residual t i) := by
  have numeric := Grid.isNumeric_of_isWithin (Grid.isWithin_of_determinantWithin triangular)
  constructor
  · intro small
    rw [invert_ofGrid, Grid.invert, if_pos numeric, Grid.refuseSingular_of_small triangular small]
    rfl
  · intro run little large regular
    obtain ⟨reduced, done, numbers, near⟩ := Grid.exists_rowReduce_augment run little regular
    refine ⟨reduced.lastColumns, ?_, numbers, near⟩
    rw [invert_ofGrid, Grid.invert, if_pos numeric, Grid.refuseSingular_of_large triangular large]
    simp only [bind, Except.bind, done, Except.map]
    rw [Grid.lastColumns, ← ofGrid_cast]

/-- A matrix that is inverted with thirds rounded on the way, and one with dependent rows. -/
theorem inverse_correct_thirds :
    let g : Grid 3 3 := ⟨#v[#v[.ofDigits 3, .one, .ofDigits 2], #v[.one, .ofDigits 4, .one],
      #v[.ofDigits 2, .one, .ofDigits 5]]⟩
    let h : Grid 3 3 := ⟨#v[#v[.ofDigits 3, .one, .ofDigits 4], #v[.one, .ofDigits 4, .ofDigits 5],
      #v[.ofDigits 2, .one, .ofDigits 3]]⟩
    let t := Tolerance.fine
    g.determinantWithin t = true ∧ h.determinantWithin t = true ∧
      (∃ inverse : Grid 3 3, (ofGrid g (by decide)).invert = .ok (ofGrid inverse (by decide)) ∧
        ∀ i j, |(g.rational * inverse.rational) i j - (1 : Matrix _ _ ℚ) i j| ≤ 1 / 10 ^ 4) ∧
      (ofGrid h (by decide)).invert = .error .singularMatrix := by
  intro g h t
  have regular : g.determinantWithin t = true := by decide +kernel
  have singular : h.determinantWithin t = true := by decide +kernel
  have det : g.rational.det = 40 := by
    rw [Matrix.det_fin_three]
    decide +kernel
  have det' : h.rational.det = 0 := by
    rw [Matrix.det_fin_three]
    decide +kernel
  obtain ⟨inverse, inverted, _, near⟩ := (inverse_correct g (by decide) t regular).2
    (by decide +kernel) (by decide +kernel) (by rw [det]; decide +kernel)
    (by rw [det]; decide +kernel)
  have residual : ∀ i, g.residual t i ≤ 1 / 10 ^ 4 := by decide +kernel
  exact ⟨regular, singular, ⟨inverse, inverted, fun i j => (near i j).trans (residual i)⟩,
    (inverse_correct h (by decide) t singular).1 (by rw [det']; decide +kernel)⟩

/-- Without a bound for the places that are shown, for what counts as zero and for rounding on the
way: the inverse of 16000 is shown with two digits, a determinant of `1 / 10 ^ 7` is refused, and
dependent rows are inverted where a third is rounded. -/
theorem inverse_incorrect :
    let large : Grid 1 1 := ⟨#v[#v[.ofDigits 16000]]⟩
    let tiny : Grid 1 1 := ⟨#v[#v[.ofDigits 1 7]]⟩
    let dependent : Grid 2 2 :=
      ⟨#v[#v[.ofDigits 3, .one], #v[.ofDigits (3 * 10 ^ 22), .ofDigits (10 ^ 22)]]⟩
    (large.rational.det ≠ 0 ∧ ∃ inverse : Grid 1 1,
      (ofGrid large (by decide)).invert = .ok (ofGrid inverse (by decide)) ∧
        1 / 10 ^ 4 < |(large.rational * inverse.rational) 0 0 - 1|) ∧
    (tiny.rational.det ≠ 0 ∧ (ofGrid tiny (by decide)).invert = .error .singularMatrix) ∧
    (dependent.rational.det = 0 ∧ ∃ inverse : Grid 2 2,
      (ofGrid dependent (by decide)).invert = .ok (ofGrid inverse (by decide))) := by
  intro large tiny dependent
  let rounded : Grid 1 1 := ⟨#v[#v[.ofDigits 63 6]]⟩
  let leftover : Grid 2 2 := ⟨#v[#v[.ofDigits 3333333333333333333333333333,
      .number ⟨true, 333333333333, 6, by decide, by decide⟩],
      #v[.number ⟨true, 9999999999999999999999999999, 0, by decide, by decide⟩, .ofDigits 1000000]]⟩
  have inverted : large.invert = .ok rounded := by decide +kernel
  have refused : tiny.invert = .error .singularMatrix := by decide +kernel
  have inverted' : dependent.invert = .ok leftover := by decide +kernel
  refine ⟨⟨?_, rounded, ?_, ?_⟩, ⟨?_, ?_⟩, ⟨?_, leftover, ?_⟩⟩
  · rw [Matrix.det_fin_one]
    decide +kernel
  · rw [invert_ofGrid, inverted]
    rfl
  · decide +kernel
  · rw [Matrix.det_fin_one]
    decide +kernel
  · rw [invert_ofGrid, refused]
    rfl
  · rw [Matrix.det_fin_two]
    decide +kernel
  · rw [invert_ofGrid, inverted']
    rfl

end ValueMatrix

end Reckon
