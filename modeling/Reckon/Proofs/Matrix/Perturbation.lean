import Mathlib.Algebra.Order.Field.Rat
import Mathlib.LinearAlgebra.Matrix.AbsoluteValue
import Mathlib.LinearAlgebra.Matrix.Block
import Mathlib.LinearAlgebra.Matrix.Determinant.Basic
import Mathlib.Tactic.Linarith
import Mathlib.Tactic.Positivity

/-!
# How determinants move with their matrix

A determinant is linear in each row, so that a row operation that is off by little moves it by
little: at most by that error times the sensitivity `n! * B ^ n`, with `B` a bound for the entries.
A matrix that is triangular in its first columns and has next to nothing in the column after them
has next to no determinant.
-/

namespace Reckon.Perturbation

open Matrix
open scoped Nat

variable {n : Nat} {A A' : Matrix (Fin n) (Fin n) ℚ} {bound error : ℚ}

/-- How far a determinant moves for each unit that a row moves by. -/
def sensitivity (n : Nat) (bound : ℚ) : ℚ :=
  n ! * bound ^ n

/-- How far a determinant moves is not negative. -/
theorem sensitivity_nonneg (n : Nat) (positive : 0 ≤ bound) : 0 ≤ sensitivity n bound := by
  rw [sensitivity]
  positivity

/-- A product of as many entries as there are rows is within the sensitivity. -/
theorem pow_le_sensitivity (n : Nat) (nonneg : 0 ≤ bound) : bound ^ n ≤ sensitivity n bound := by
  have factorial : (1 : ℚ) ≤ n ! := by exact_mod_cast n.factorial_pos
  exact le_mul_of_one_le_left (pow_nonneg nonneg n) factorial

/-! ## Small rows and columns -/

/-- A determinant is within the sensitivity of its size. -/
theorem abs_det_le (entries : ∀ a b, |A a b| ≤ bound) : |A.det| ≤ sensitivity n bound := by
  have h : AbsoluteValue.abs A.det ≤ _ := Matrix.det_le entries
  rw [Fintype.card_fin, nsmul_eq_mul] at h
  exact h

/-- A row of small entries makes the determinant small. -/
theorem abs_det_le_of_row {i : Fin n} (one : 1 ≤ bound)
    (others : ∀ a, a ≠ i → ∀ b, |A a b| ≤ bound) (row : ∀ b, |A i b| ≤ error) :
    |A.det| ≤ sensitivity n bound * error := by
  rcases (abs_nonneg (A i i)).trans (row i) |>.eq_or_lt with zero | positive
  · have rowZero : ∀ b, A i b = 0 :=
      fun b => abs_eq_zero.1 (le_antisymm (zero ▸ row b) (abs_nonneg _))
    rw [det_eq_zero_of_row_eq_zero i rowZero, abs_zero, ← zero, mul_zero]
  · have scaled : A = A.updateRow i (error • (error⁻¹ • A i)) := by
      rw [smul_smul, mul_inv_cancel₀ positive.ne', one_smul, updateRow_eq_self]
    have entries : ∀ a b, |A.updateRow i (error⁻¹ • A i) a b| ≤ bound := by
      intro a b
      by_cases own : a = i
      · rw [own, updateRow_self, Pi.smul_apply, smul_eq_mul, abs_mul, abs_inv,
          abs_of_pos positive, inv_mul_le_iff₀ positive]
        calc |A i b| ≤ error := row b
          _ ≤ error * bound := le_mul_of_one_le_right positive.le one
      · rw [updateRow_ne own]
        exact others a own b
    rw [scaled, det_updateRow_smul, abs_mul, abs_of_pos positive, mul_comm]
    exact mul_le_mul_of_nonneg_right (abs_det_le entries) positive.le

/-- A column of small entries makes the determinant small. -/
theorem abs_det_le_of_column {j : Fin n} (one : 1 ≤ bound)
    (others : ∀ a b, b ≠ j → |A a b| ≤ bound) (column : ∀ a, |A a j| ≤ error) :
    |A.det| ≤ sensitivity n bound * error := by
  rw [← det_transpose]
  exact abs_det_le_of_row one (fun b other a => others a b other) column

/-! ## Row operations that are off by little -/

/-- The second matrix has another row, which is close to the given one. -/
def RowNear (A A' : Matrix (Fin n) (Fin n) ℚ) (i : Fin n) (row : Fin n → ℚ) (error : ℚ) : Prop :=
  (∀ a, a ≠ i → A' a = A a) ∧ ∀ b, |A' i b - row b| ≤ error

namespace RowNear

variable {i k : Fin n} {row : Fin n → ℚ} {c : ℚ}

/-- The determinant moves as far as that of the difference in the row goes. -/
theorem abs_det_sub_le (h : RowNear A A' i row error) (one : 1 ≤ bound)
    (entries : ∀ a b, |A a b| ≤ bound) :
    |A'.det - (A.updateRow i row).det| ≤ sensitivity n bound * error := by
  have whole : A' = A.updateRow i (row + (A' i - row)) := by
    funext a
    by_cases own : a = i
    · rw [own, updateRow_self, add_sub_cancel]
    · rw [updateRow_ne own, h.1 a own]
  have split : A'.det = (A.updateRow i row).det + (A.updateRow i (A' i - row)).det := by
    rw [← det_updateRow_add, ← whole]
  rw [split, add_sub_cancel_left]
  refine abs_det_le_of_row (i := i) one (fun a other b => ?_) fun b => ?_
  · rw [updateRow_ne other]
    exact entries a b
  · rw [updateRow_self]
    exact h.2 b

/-- Adding a multiple of another row moves the determinant by little if it is off by little. -/
theorem abs_det_sub_le_of_add (h : RowNear A A' i (A i + c • A k) error) (apart : i ≠ k)
    (one : 1 ≤ bound) (entries : ∀ a b, |A a b| ≤ bound) :
    |A'.det - A.det| ≤ sensitivity n bound * error := by
  have moved := h.abs_det_sub_le one entries
  rwa [det_updateRow_add_smul_self A apart] at moved

end RowNear

/-! ## Columns without a pivot -/

/-- The first columns are zero below the diagonal. -/
def ClearedBefore (k : Nat) (A : Matrix (Fin n) (Fin n) ℚ) : Prop :=
  ∀ a b : Fin n, b.val < k → b < a → A a b = 0

/-- The determinant of a triangular matrix is the product of its diagonal. -/
theorem det_of_clearedBefore (h : ClearedBefore n A) : A.det = ∏ i, A i i :=
  det_of_isUpperTriangular fun a b less => h a b b.isLt less

/-- If the next column is zero from the diagonal on, there is no determinant. -/
theorem det_eq_zero_of_clearedBefore {k : Fin n} (h : ClearedBefore k A)
    (column : ∀ a, k ≤ a → A a k = 0) : A.det = 0 := by
  rw [twoBlockTriangular_det A (fun a => a < k) fun a low b high =>
    h a b high (lt_of_lt_of_le high (not_lt.1 low))]
  refine mul_eq_zero_of_right _ ?_
  refine det_eq_zero_of_column_eq_zero ⟨k, lt_irrefl k⟩ fun a => ?_
  exact column a.1 (not_lt.1 a.2)

/-- If the next column is next to zero from the diagonal on, there is next to no determinant. -/
theorem abs_det_le_of_clearedBefore {k : Fin n} (h : ClearedBefore k A) (one : 1 ≤ bound)
    (entries : ∀ a b, |A a b| ≤ bound) (nonneg : 0 ≤ error)
    (column : ∀ a, k ≤ a → |A a k| ≤ error) : |A.det| ≤ sensitivity n bound * error := by
  let above : Fin n → ℚ := fun a => if k ≤ a then 0 else A a k
  let below : Fin n → ℚ := fun a => if k ≤ a then A a k else 0
  have whole : A = A.updateCol k (above + below) := by
    funext a b
    by_cases own : b = k
    · rw [own, updateCol_self, Pi.add_apply]
      simp only [above, below]
      split
      · rw [zero_add]
      · rw [add_zero]
    · rw [updateCol_ne own]
  have none : (A.updateCol k above).det = 0 := by
    refine det_eq_zero_of_clearedBefore (k := k) (fun a b left low => ?_) fun a low => ?_
    · rw [updateCol_ne (Fin.ne_of_lt left)]
      exact h a b left low
    · rw [updateCol_self]
      exact if_pos low
  rw [whole, det_updateCol_add, none, zero_add]
  refine abs_det_le_of_column (j := k) one (fun a b other => ?_) fun a => ?_
  · rw [updateCol_ne other]
    exact entries a b
  · rw [updateCol_self]
    simp only [below]
    split
    · next low => exact column a low
    · rw [abs_zero]
      exact nonneg

end Reckon.Perturbation
