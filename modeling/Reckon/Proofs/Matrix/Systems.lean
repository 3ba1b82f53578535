import Mathlib.Data.Fin.Tuple.Basic
import Mathlib.LinearAlgebra.Matrix.NonsingularInverse
import Reckon.Proofs.Matrix.ExactDeterminants
import Reckon.Proofs.Matrix.Inverse

/-!
# Linear systems without rounding

A system of numbers is solved by reducing its matrix with the right side as one more column. If the
determinant is not zero, the reduced form is the identity with the solution beside it, for that is a
reduced form and there is only one. So the column that is read off is the solution, and a system
whose determinant is shown as zero is refused before that.
-/

namespace Reckon

namespace Echelon

open Matrix

variable {n : Nat} {A : Matrix (Fin n) (Fin n) ℚ}

/-! ## A column beside a square matrix -/

/-- A square matrix with one more column. -/
def beside (A : Matrix (Fin n) (Fin n) ℚ) (c : Fin n → ℚ) : Matrix (Fin n) (Fin (n + 1)) ℚ :=
  fun i => Fin.snoc (A i) (c i)

/-- The first columns of a matrix with a column beside it are its own. -/
@[simp] theorem beside_castSucc (A : Matrix (Fin n) (Fin n) ℚ) (c : Fin n → ℚ) (i j : Fin n) :
    beside A c i j.castSucc = A i j :=
  Fin.snoc_castSucc (α := fun _ => ℚ) (c i) (A i) j

/-- The last column of a matrix with a column beside it is that column. -/
@[simp] theorem beside_last (A : Matrix (Fin n) (Fin n) ℚ) (c : Fin n → ℚ) (i : Fin n) :
    beside A c i (Fin.last n) = c i :=
  Fin.snoc_last (α := fun _ => ℚ) (c i) (A i)

/-- Multiplying a matrix with a column beside it multiplies both. -/
theorem mul_beside (P A : Matrix (Fin n) (Fin n) ℚ) (c : Fin n → ℚ) :
    P * beside A c = beside (P * A) (P *ᵥ c) := by
  funext i j
  refine Fin.lastCases ?_ (fun j => ?_) j
  · rw [beside_last, Matrix.mul_apply]
    simp only [beside_last]
    rfl
  · rw [beside_castSucc, Matrix.mul_apply, Matrix.mul_apply]
    simp only [beside_castSucc]

/-- The identity with a column beside it is reduced: every row begins on the diagonal. -/
theorem isReducedRowEchelon_beside_one (x : Fin n → ℚ) :
    (beside (1 : Matrix (Fin n) (Fin n) ℚ) x).IsReducedRowEchelon := by
  have leading : ∀ i, (beside (1 : Matrix (Fin n) (Fin n) ℚ) x).IsLeadingEntry i i.castSucc := by
    intro i
    refine ⟨fun j less => ?_, ?_⟩
    · obtain ⟨j, rfl⟩ := Fin.exists_castSucc_eq.2 (less.trans_le (Fin.le_last _)).ne
      rw [beside_castSucc, Matrix.one_apply_ne (Fin.castSucc_lt_castSucc_iff.1 less).ne']
    · rw [beside_castSucc, Matrix.one_apply_eq]
      exact one_ne_zero
  refine ⟨fun i k less j zero => ?_, fun i j lead => ?_, fun i k j less lead => ?_⟩
  · have le : j ≤ i.castSucc := not_lt.1 fun right => (leading i).2 (zero _ right)
    exact (leading k).1 j (le.trans_lt (Fin.castSucc_lt_castSucc_iff.2 less))
  · rw [lead.unique (leading i), beside_castSucc, Matrix.one_apply_eq]
  · rw [lead.unique (leading k), beside_castSucc, Matrix.one_apply_ne less.ne]

/-- Elimination on a system with a regular matrix leaves the identity and the solution. -/
theorem reduced_beside (regular : A.det ≠ 0) (c : Fin n → ℚ) :
    reduced false (List.finRange (n + 1)) 0 (beside A c) = beside 1 (A⁻¹ *ᵥ c) := by
  have unit : IsUnit A.det := regular.isUnit
  have equivalent : RowEquivalent (beside A c) (beside 1 (A⁻¹ *ᵥ c)) := by
    refine ⟨⟨A⁻¹, A, Matrix.nonsing_inv_mul A unit, Matrix.mul_nonsing_inv A unit⟩, ?_⟩
    rw [mul_beside, Matrix.nonsing_inv_mul A unit]
  exact eq_of_isReducedRowEchelon ((reduced_correct false (beside A c)).2.2 rfl)
    (isReducedRowEchelon_beside_one _)
    ((rowEquivalent_reduced false (List.finRange (n + 1)) 0 (beside A c)).symm.trans equivalent)

/-- A regular system has one solution. -/
theorem mulVec_eq_iff (regular : A.det ≠ 0) (c x : Fin n → ℚ) : A *ᵥ x = c ↔ x = A⁻¹ *ᵥ c := by
  have unit : IsUnit A.det := regular.isUnit
  constructor
  · rintro rfl
    rw [Matrix.mulVec_mulVec, Matrix.nonsing_inv_mul A unit, Matrix.one_mulVec]
  · rintro rfl
    rw [Matrix.mulVec_mulVec, Matrix.mul_nonsing_inv A unit, Matrix.one_mulVec]

end Echelon

open Reckon.Echelon

namespace Grid

variable {n : Nat} {g : Grid n n}

/-! ## The system of a grid and a right side -/

/-- A grid of one column. -/
def column (b : Fin n → Value) : Grid n 1 :=
  ofFn fun i _ => b i

/-- The first columns of an augmented grid are its own. -/
theorem entry_augment_castSucc (g : Grid n n) (b : Fin n → Value) (i j : Fin n) :
    (g.augment (column b)).entry i j.castSucc = g.entry i j :=
  entry_augment_castAdd g (column b) i j

/-- The last column of an augmented grid is the right side. -/
theorem entry_augment_last (g : Grid n n) (b : Fin n → Value) (i : Fin n) :
    (g.augment (column b)).entry i (Fin.last n) = b i := by
  have last : Fin.last n = Fin.natAdd n (0 : Fin 1) := rfl
  rw [last, entry_augment_natAdd, column, entry_ofFn]

/-- The rationals of an augmented grid are those of the grid beside those of the right side. -/
theorem rational_augment_column (g : Grid n n) (b : Fin n → Value) :
    (g.augment (column b)).rational = beside g.rational fun i => (b i).rat := by
  funext i j
  refine Fin.lastCases ?_ (fun j => ?_) j
  · rw [beside_last, rational, entry_augment_last]
  · rw [beside_castSucc, rational, entry_augment_castSucc, rational]

/-- A grid of numbers with numbers on the right side is one of numbers. -/
theorem isNumeric_augment_column {b : Fin n → Value} (numeric : g.isNumeric = true)
    (right : ∀ i, (b i).isNumeric = true) : (g.augment (column b)).isNumeric = true := by
  refine isNumeric_iff.2 fun i j => ?_
  refine Fin.lastCases ?_ (fun j => ?_) j
  · rw [entry_augment_last]
    exact right i
  · rw [entry_augment_castSucc]
    exact isNumeric_iff.1 numeric i j

/-- A run without rounding on a regular system ends with the solution. -/
theorem exists_solve {b : Fin n → Value} (numeric : g.isNumeric = true)
    (right : ∀ i, (b i).isNumeric = true) (accepted : g.refuseSingular = .ok ())
    (regular : g.rational.det ≠ 0)
    (exact : (g.augment (column b)).runsExactly false (List.finRange (n + 1)) 0 = true) :
    ∃ d : Fin n → Decimal,
      (∀ i, (d i).toRat = (g.rational⁻¹.mulVec fun i => (b i).rat) i) ∧
        g.solve (column b) = .ok (List.ofFn fun i => (Value.number (d i)).rounded 6) := by
  obtain ⟨g', done, stands⟩ :=
    (standsFor_rational (isNumeric_augment_column numeric right)).reduceColumns exact
  rw [rational_augment_column, reduced_beside regular] at stands
  choose d values entries using fun i => stands.shows i (Fin.last n)
  simp only [beside_last] at values
  refine ⟨d, values, ?_⟩
  have reduced : (g.augment (column b)).rowReduce = .ok g'.prettify := by
    rw [rowReduce, done]
    rfl
  rw [solve, if_pos numeric, accepted, List.ofFn_eq_map]
  simp only [bind, Except.bind, reduced, entries]

end Grid

namespace ValueMatrix

variable {n : Nat}

/-- A right side given as a list is a grid of one column. -/
theorem gridOfColumns_ofFn (b : Fin n → Value)
    (length : ∀ column ∈ [List.ofFn b], column.length = n) :
    gridOfColumns n [List.ofFn b] length = Grid.column b := by
  refine Grid.ext fun i j => ?_
  rw [Grid.column, Grid.entry_ofFn]
  simp [Grid.entry, gridOfColumns]

/-- Solving a system with a square matrix is solving that of its grid. -/
theorem solve_ofGrid (g : Grid n n) (positive : 0 < n) (b : Fin n → Value) :
    (ofGrid g positive).solve (List.ofFn b) = g.solve (Grid.column b) := by
  have square : (ofGrid g positive).solve (List.ofFn b) =
      if h : (List.ofFn b).length = n then
        g.solve (gridOfColumns n [List.ofFn b] (by simp))
      else misshapen (.rightSideLength (List.ofFn b).length n) := dif_pos rfl
  rw [square, dif_pos List.length_ofFn, gridOfColumns_ofFn]

/-- Solving is exact where nothing is rounded before the end. A system of numbers is refused as
singular exactly when its determinant is less than half a millionth, and otherwise it has one
solution, and that is what is returned, as it is shown. -/
theorem solution_correct (g : Grid n n) (positive : 0 < n) (b : Fin n → Value)
    (right : ∀ i, (b i).isNumeric = true) (triangular : g.determinantWithin .exact = true)
    (exact : 1 / (2 * 10 ^ 6) ≤ |g.rational.det| →
      (g.augment (Grid.column b)).runsExactly false (List.finRange (n + 1)) 0 = true) :
    ((ofGrid g positive).solve (List.ofFn b) = .error .singularMatrix ↔
      |g.rational.det| < 1 / (2 * 10 ^ 6)) ∧
    (1 / (2 * 10 ^ 6) ≤ |g.rational.det| →
      ∃ x : Fin n → ℚ, (∀ y, g.rational.mulVec y = (fun i => (b i).rat) ↔ y = x) ∧
        ∃ d : Fin n → Decimal, (∀ i, (d i).toRat = x i) ∧
          (ofGrid g positive).solve (List.ofFn b) =
            .ok (List.ofFn fun i => (Value.number (d i)).rounded 6)) := by
  have numeric := Grid.isNumeric_of_isWithin (Grid.isWithin_of_determinantWithin triangular)
  have none : Grid.triangularError .exact n = 0 := by
    rw [Grid.triangularError, Tolerance.determinantError_exact, mul_zero]
  have refused : |g.rational.det| < 1 / (2 * 10 ^ 6) →
      (ofGrid g positive).solve (List.ofFn b) = .error .singularMatrix := by
    intro small
    rw [solve_ofGrid, Grid.solve, if_pos numeric,
      Grid.refuseSingular_of_small triangular (by rwa [none, add_zero])]
    rfl
  have solved : 1 / (2 * 10 ^ 6) ≤ |g.rational.det| → g.rational.det ≠ 0 ∧
      ∃ d : Fin n → Decimal, (∀ i, (d i).toRat = (g.rational⁻¹.mulVec fun i => (b i).rat) i) ∧
        (ofGrid g positive).solve (List.ofFn b) =
          .ok (List.ofFn fun i => (Value.number (d i)).rounded 6) := by
    intro large
    have accepted := Grid.refuseSingular_of_large triangular (by rwa [none, add_zero])
    have regular : g.rational.det ≠ 0 := by
      rw [← abs_pos]
      exact lt_of_lt_of_le (by norm_num) large
    rw [solve_ofGrid]
    exact ⟨regular, Grid.exists_solve numeric right accepted regular (exact large)⟩
  refine ⟨⟨fun singular => ?_, refused⟩, fun large => ?_⟩
  · by_contra large
    obtain ⟨-, d, -, done⟩ := solved (not_lt.1 large)
    rw [done] at singular
    cases singular
  · obtain ⟨regular, d, values, done⟩ := solved large
    exact ⟨_, mulVec_eq_iff regular _, d, values, done⟩

/-- A system whose rows are exchanged on the way, and one with dependent rows. -/
theorem solution_correct_exchanged :
    let b : Fin 2 → Value := ![.ofDigits 2, .ofDigits 3]
    let g : Grid 2 2 := ⟨#v[#v[.zero, .ofDigits 2], #v[.ofDigits 4, .one]]⟩
    let h : Grid 2 2 := ⟨#v[#v[.one, .ofDigits 2], #v[.ofDigits 2, .ofDigits 4]]⟩
    (∀ i, (b i).isNumeric = true) ∧ g.determinantWithin .exact = true ∧
      (g.augment (Grid.column b)).runsExactly false (List.finRange 3) 0 = true ∧
      (∃ d : Fin 2 → Decimal, g.rational.mulVec (fun i => (d i).toRat) = (fun i => (b i).rat) ∧
        (ofGrid g (by decide)).solve (List.ofFn b) =
          .ok (List.ofFn fun i => (Value.number (d i)).rounded 6)) ∧
      (ofGrid h (by decide)).solve (List.ofFn b) = .error .singularMatrix := by
  intro b g h
  have right : ∀ i, (b i).isNumeric = true := by decide
  have triangular : g.determinantWithin .exact = true := by decide +kernel
  have exact : (g.augment (Grid.column b)).runsExactly false (List.finRange 3) 0 = true := by
    decide +kernel
  refine ⟨right, triangular, exact, ?_, ?_⟩
  · have det : g.rational.det = -8 := by
      rw [Matrix.det_fin_two]
      decide +kernel
    obtain ⟨-, solved⟩ := solution_correct g (by decide) b right triangular fun _ => exact
    obtain ⟨x, unique, d, values, done⟩ := solved (by rw [det]; norm_num)
    obtain rfl : (fun i => (d i).toRat) = x := funext values
    exact ⟨d, (unique _).2 rfl, done⟩
  · have det : h.rational.det = 0 := by
      rw [Matrix.det_fin_two]
      decide +kernel
    have small : |h.rational.det| < 1 / (2 * 10 ^ 6) := by
      rw [det]
      norm_num
    exact (solution_correct h (by decide) b right (by decide +kernel)
      fun large => absurd large (not_le.2 small)).1.2 small

end ValueMatrix

end Reckon
