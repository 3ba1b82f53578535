import Mathlib.Algebra.Field.Rat
import Mathlib.Data.Matrix.Mul
import Mathlib.LinearAlgebra.Matrix.Echelon.Basic

/-!
# Echelon forms of row equivalent matrices

Row equivalent matrices in row echelon form have their leading entries in the same places, and if
both are reduced they are equal. A combination of rows in echelon form begins where one of the rows
begins, and both facts follow from that.
-/

namespace Reckon.Echelon

open Matrix

variable {rows cols : Nat} {A B C : Matrix (Fin rows) (Fin cols) ℚ}

/-! ## Row equivalence -/

/-- The second matrix is the first one multiplied from the left by an invertible matrix. -/
def RowEquivalent (A B : Matrix (Fin rows) (Fin cols) ℚ) : Prop :=
  ∃ P : (Matrix (Fin rows) (Fin rows) ℚ)ˣ, P.val * A = B

namespace RowEquivalent

/-- A matrix is row equivalent to itself. -/
theorem refl (A : Matrix (Fin rows) (Fin cols) ℚ) : RowEquivalent A A :=
  ⟨1, by rw [Units.val_one, Matrix.one_mul]⟩

/-- Row equivalence goes both ways. -/
theorem symm (h : RowEquivalent A B) : RowEquivalent B A := by
  obtain ⟨P, rfl⟩ := h
  refine ⟨P⁻¹, ?_⟩
  rw [← Matrix.mul_assoc, Units.inv_mul, Matrix.one_mul]

/-- Row equivalence may be chained. -/
theorem trans (h : RowEquivalent A B) (h' : RowEquivalent B C) : RowEquivalent A C := by
  obtain ⟨P, rfl⟩ := h
  obtain ⟨Q, rfl⟩ := h'
  refine ⟨Q * P, ?_⟩
  rw [Units.val_mul, Matrix.mul_assoc]

end RowEquivalent

/-! ## Combinations of rows -/

/-- The vector is a linear combination of the rows. -/
def IsCombination (A : Matrix (Fin rows) (Fin cols) ℚ) (v : Fin cols → ℚ) : Prop :=
  ∃ c, c ᵥ* A = v

/-- Every row is a combination of the rows. -/
theorem isCombination_row (A : Matrix (Fin rows) (Fin cols) ℚ) (i : Fin rows) :
    IsCombination A (A i) :=
  ⟨Pi.single i 1, Matrix.single_one_vecMul i A⟩

/-- The difference of two combinations is a combination. -/
theorem IsCombination.sub {v w : Fin cols → ℚ} (hv : IsCombination A v) (hw : IsCombination A w) :
    IsCombination A (v - w) := by
  obtain ⟨c, rfl⟩ := hv
  obtain ⟨d, rfl⟩ := hw
  exact ⟨c - d, Matrix.sub_vecMul A c d⟩

/-- The rows of an equivalent matrix are combinations of the rows. -/
theorem RowEquivalent.isCombination (h : RowEquivalent A B) (i : Fin rows) :
    IsCombination A (B i) := by
  obtain ⟨P, rfl⟩ := h
  exact ⟨P.val i, (Matrix.mul_apply_eq_vecMul P.val A i).symm⟩

/-! ## Leading entries -/

/-- Lower rows begin further to the right. -/
theorem lt_of_isLeadingEntry (h : A.IsRowEchelon) {i k : Fin rows} {j j' : Fin cols} (less : i < k)
    (lead : A.IsLeadingEntry i j) (lead' : A.IsLeadingEntry k j') : j < j' := by
  refine lt_of_not_ge fun ge => lead'.2 (h less fun b left => ?_)
  exact lead.1 b (lt_of_lt_of_le left ge)

/-- A row below one that begins in a column is zero up to that column. -/
theorem eq_zero_of_le (h : A.IsRowEchelon) {i k : Fin rows} {j b : Fin cols} (less : i < k)
    (lead : A.IsLeadingEntry i j) (le : b ≤ j) : A k b = 0 :=
  h less fun a left => lead.1 a (lt_of_lt_of_le left le)

/-- A combination of rows begins where the first row that it takes begins. -/
theorem exists_isLeadingEntry (h : A.IsRowEchelon) {v : Fin cols → ℚ}
    (combination : IsCombination A v) {j : Fin cols} (before : ∀ b < j, v b = 0) (entry : v j ≠ 0) :
    ∃ i, A.IsLeadingEntry i j := by
  obtain ⟨c, rfl⟩ := combination
  have value : ∀ b, (c ᵥ* A) b = ∑ k, c k * A k b := fun _ => rfl
  have taken : {i | c i ≠ 0 ∧ A i ≠ 0}.Nonempty := by
    rw [value] at entry
    obtain ⟨i, -, nonzero⟩ := Finset.exists_ne_zero_of_sum_ne_zero entry
    refine ⟨i, left_ne_zero_of_mul nonzero, fun zero => ?_⟩
    exact right_ne_zero_of_mul nonzero (congrFun zero j)
  obtain ⟨i, ⟨factor, row⟩, least⟩ := wellFounded_lt.has_min _ taken
  obtain ⟨p, lead⟩ := row_ne_zero_iff_exists_isLeadingEntry.1 row
  -- Up to its leading entry, the first row that is taken is the only one with entries.
  have alone : ∀ b ≤ p, (c ᵥ* A) b = c i * A i b := by
    intro b le
    rw [value]
    refine Finset.sum_eq_single i (fun k _ other => ?_)
      fun absent => absurd (Finset.mem_univ i) absent
    by_cases zero : c k = 0
    · rw [zero, zero_mul]
    · by_cases zeroRow : A k = 0
      · rw [zeroRow, Pi.zero_apply, mul_zero]
      · have less : i < k := lt_of_le_of_ne (not_lt.1 (least k ⟨zero, zeroRow⟩)) other.symm
        rw [eq_zero_of_le h less lead le, mul_zero]
  have same : j = p := by
    rcases lt_trichotomy j p with left | same | right
    · rw [alone j left.le, lead.1 j left, mul_zero] at entry
      exact absurd rfl entry
    · exact same
    · have zero := before p right
      rw [alone p le_rfl] at zero
      exact absurd zero (mul_ne_zero factor lead.2)
  exact ⟨i, same ▸ lead⟩

/-- If the leading entries above a row are in the same places, then so is that of the row. -/
theorem isLeadingEntry_of_above (hA : A.IsRowEchelon) (hB : B.IsRowEchelon)
    (h : RowEquivalent A B) {i : Fin rows}
    (above : ∀ k < i, ∀ j, A.IsLeadingEntry k j ↔ B.IsLeadingEntry k j) {j : Fin cols}
    (lead : A.IsLeadingEntry i j) : B.IsLeadingEntry i j := by
  obtain ⟨k, lead'⟩ := exists_isLeadingEntry hB (h.symm.isCombination i) lead.1 lead.2
  rcases lt_trichotomy k i with less | rfl | more
  · have right := lt_of_isLeadingEntry hA less ((above k less j).2 lead') lead
    exact absurd right (lt_irrefl j)
  · exact lead'
  · -- Then the row of `B` begins before `j`, which no row of `A` does from there on.
    have row : B i ≠ 0 := fun zero => lead'.row_ne_zero (hB.row_eq_zero_of_lt more zero)
    obtain ⟨p, first⟩ := row_ne_zero_iff_exists_isLeadingEntry.1 row
    have left := lt_of_isLeadingEntry hB more first lead'
    obtain ⟨l, first'⟩ := exists_isLeadingEntry hA (h.isCombination i) first.1 first.2
    rcases lt_trichotomy l i with less | rfl | more
    · have right := lt_of_isLeadingEntry hB less ((above l less p).1 first') first
      exact absurd right (lt_irrefl p)
    · rw [first'.unique lead] at left
      exact absurd left (lt_irrefl j)
    · have right := lt_of_isLeadingEntry hA more lead first'
      exact absurd (lt_trans left right) (lt_irrefl p)

/-- Row equivalent matrices in echelon form have their leading entries in the same places. -/
theorem isLeadingEntry_iff (hA : A.IsRowEchelon) (hB : B.IsRowEchelon) (h : RowEquivalent A B)
    (i : Fin rows) (j : Fin cols) : A.IsLeadingEntry i j ↔ B.IsLeadingEntry i j := by
  induction i using WellFoundedLT.induction generalizing j with
  | ind i ih =>
    constructor
    · exact isLeadingEntry_of_above hA hB h ih
    · exact isLeadingEntry_of_above hB hA h.symm fun k less j => (ih k less j).symm

/-- A reduced matrix stays reduced when zeros and ones are kept, whatever becomes of the other
entries: its leading entries stay where they are. -/
theorem isReducedRowEchelon_of_kept (h : A.IsReducedRowEchelon)
    (zeros : ∀ i j, A i j = 0 → B i j = 0) (ones : ∀ i j, A i j = 1 → B i j = 1) :
    B.IsReducedRowEchelon := by
  have kept : ∀ {i j}, A.IsLeadingEntry i j → B.IsLeadingEntry i j := fun {i j} lead =>
    ⟨fun b left => zeros i b (lead.1 b left), by
      rw [ones i j (h.eq_one lead)]
      exact one_ne_zero⟩
  have own : ∀ {i j}, B.IsLeadingEntry i j → A.IsLeadingEntry i j := by
    intro i j lead
    have row : A i ≠ 0 := fun zero => lead.2 (zeros i j (congrFun zero j))
    obtain ⟨p, first⟩ := row_ne_zero_iff_exists_isLeadingEntry.1 row
    rwa [lead.unique (kept first)]
  refine ⟨fun i k less j before => ?_, fun i j lead => ones i j (h.eq_one (own lead)),
    fun i k j less lead => zeros i j (h.eq_zero less (own lead))⟩
  by_cases zeroRow : A i = 0
  · exact zeros k j (congrFun (h.isRowEchelon.row_eq_zero_of_lt less zeroRow) j)
  · obtain ⟨p, first⟩ := row_ne_zero_iff_exists_isLeadingEntry.1 zeroRow
    have le : j ≤ p := not_lt.1 fun left => (kept first).2 (before p left)
    exact zeros k j (eq_zero_of_le h.isRowEchelon less first le)

/-- A matrix has at most one reduced row echelon form. -/
theorem eq_of_isReducedRowEchelon (hA : A.IsReducedRowEchelon) (hB : B.IsReducedRowEchelon)
    (h : RowEquivalent A B) : A = B := by
  funext i
  by_contra differ
  have combination : IsCombination A (A i - B i) :=
    (isCombination_row A i).sub (h.isCombination i)
  obtain ⟨j, nonzero, least⟩ := wellFounded_lt.has_min {j | (A i - B i) j ≠ 0}
    (Function.ne_iff.1 (sub_ne_zero.2 differ))
  have before : ∀ b < j, (A i - B i) b = 0 := by
    intro b less
    by_contra entry
    exact least b entry less
  obtain ⟨k, lead⟩ := exists_isLeadingEntry hA.isRowEchelon combination before nonzero
  have lead' := (isLeadingEntry_iff hA.isRowEchelon hB.isRowEchelon h k j).1 lead
  refine nonzero ?_
  rw [Pi.sub_apply]
  by_cases same : i = k
  · rw [same, hA.eq_one lead, hB.eq_one lead', sub_self]
  · rw [hA.eq_zero_of_ne_of_isLeadingEntry same lead, hB.eq_zero_of_ne_of_isLeadingEntry same lead',
      sub_self]

end Reckon.Echelon
