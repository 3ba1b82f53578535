import Mathlib.LinearAlgebra.Matrix.NonsingularInverse
import Reckon.Proofs.Matrix.Perturbation

/-!
# Columns as combinations

Elimination writes every column of a matrix as a combination of `n` vectors: at first of unit
vectors, and with each pivot the column of the pivot takes the place of one of them. Rounding lets
the combinations drift from the columns. With a pivot in each of the first `n` columns, what is left
in the others is next to the inverse of these times the others; without one, there is next to no
determinant.
-/

namespace Reckon.Perturbation

open Matrix

variable {n : Nat} {A₀ A A' : Matrix (Fin n) (Fin (n + n)) ℚ} {P : Fin n → Fin n → ℚ}
  {k : Nat} {bound drift error small : ℚ}

/-- A sum of small terms is as small as their number allows. -/
theorem abs_sum_le {f : Fin n → ℚ} (terms : ∀ i, |f i| ≤ error) : |∑ i, f i| ≤ n * error := by
  refine (Finset.abs_sum_le_sum_abs _ _).trans ?_
  refine (Finset.sum_le_card_nsmul _ _ _ fun i _ => terms i).trans ?_
  rw [Finset.card_univ, Fintype.card_fin, nsmul_eq_mul]

/-- The square matrix of the first columns. -/
def leftHalf (A : Matrix (Fin n) (Fin (n + n)) ℚ) : Matrix (Fin n) (Fin n) ℚ :=
  fun a b => A a (Fin.castAdd n b)

/-- The square matrix of the last columns. -/
def rightHalf (A : Matrix (Fin n) (Fin (n + n)) ℚ) : Matrix (Fin n) (Fin n) ℚ :=
  fun a b => A a (Fin.natAdd n b)

/-- The columns of the first matrix are, up to a drift, combinations of vectors with the columns of
the second one as coefficients. The first `k` vectors are columns themselves. -/
structure Combines (A₀ A : Matrix (Fin n) (Fin (n + n)) ℚ) (k : Nat) (P : Fin n → Fin n → ℚ)
    (drift : ℚ) : Prop where
  taken : ∀ i : Fin n, i.val < k → ∀ a, |P i a - leftHalf A₀ a i| ≤ drift
  fresh : ∀ i : Fin n, k ≤ i.val → ∀ a, |P i a| ≤ 1
  columns : ∀ c, k ≤ c.val → ∀ a, |A₀ a c - ∑ i, A i c * P i a| ≤ drift

/-- Every matrix combines unit vectors. -/
theorem combines_single (A₀ : Matrix (Fin n) (Fin (n + n)) ℚ) :
    Combines A₀ A₀ 0 (fun i => Pi.single i 1) 0 := by
  refine ⟨fun i less => absurd less (Nat.not_lt_zero _), fun i _ a => ?_, fun c _ a => ?_⟩
  · rw [Pi.single_apply]
    split <;> norm_num
  · simp only [Pi.single_apply, mul_ite, mul_one, mul_zero, Finset.sum_ite_eq, Finset.mem_univ,
      if_true, sub_self, abs_zero, le_refl]

/-- Exchanging two rows exchanges their vectors. -/
theorem Combines.exchange (h : Combines A₀ A k P drift) {i j : Fin n} (hi : k ≤ i.val)
    (hj : k ≤ j.val) :
    Combines A₀ (fun a => A (Equiv.swap i j a)) k (fun a => P (Equiv.swap i j a)) drift := by
  refine ⟨fun a less => ?_, fun a le => ?_, fun c le a => ?_⟩
  · rw [Equiv.swap_apply_of_ne_of_ne]
    · exact h.taken a less
    · rintro rfl
      omega
    · rintro rfl
      omega
  · rw [Equiv.swap_apply_def]
    split
    · exact h.fresh j hj
    · split
      · exact h.fresh i hi
      · exact h.fresh a le
  · rw [Equiv.sum_comp (Equiv.swap i j) fun b => A b c * P b a]
    exact h.columns c le a

/-- The vectors stay within the bound for the columns, up to the drift. -/
theorem Combines.abs_vector_le (h : Combines A₀ A k P drift) (one : 1 ≤ bound)
    (entries : ∀ a c, |A₀ a c| ≤ bound) (i a : Fin n) (little : drift ≤ 1) :
    |P i a| ≤ bound + 1 := by
  by_cases less : i.val < k
  · have near := h.taken i less a
    have entry : |leftHalf A₀ a i| ≤ bound := entries a _
    have together := abs_add_le (P i a - leftHalf A₀ a i) (leftHalf A₀ a i)
    rw [sub_add_cancel] at together
    linarith
  · have near := h.fresh i (not_lt.1 less) a
    linarith

/-- How far a column is from the combination after a pivot, for each vector. -/
def defect (A A' : Matrix (Fin n) (Fin (n + n)) ℚ) (k : Fin n) (c : Fin (n + n)) (i : Fin n) : ℚ :=
  if i = k then A' k c * A k (Fin.castAdd n k) - A k c
  else A' i c - (A i c - A i (Fin.castAdd n k) * A' k c)

/-- With a pivot its column becomes a vector, and what the others had of the old one is taken over
by the rest. -/
theorem sum_update (A A' : Matrix (Fin n) (Fin (n + n)) ℚ) (P : Fin n → Fin n → ℚ) (k : Fin n)
    (c : Fin (n + n)) (a : Fin n) :
    ∑ i, A' i c * Function.update P k (∑ j, A j (Fin.castAdd n k) • P j) i a =
      ∑ i, A i c * P i a + ∑ i, defect A A' k c i * P i a := by
  have others : ∀ i, A' i c * Function.update P k (∑ j, A j (Fin.castAdd n k) • P j) i a =
      (if i = k then 0 else A' i c * P i a) +
        if i = k then A' k c * ∑ j, A j (Fin.castAdd n k) * P j a else 0 := by
    intro i
    by_cases own : i = k
    · rw [own, Function.update_self, if_pos rfl, if_pos rfl, zero_add, Finset.sum_apply]
      simp only [Pi.smul_apply, smul_eq_mul]
    · rw [Function.update_of_ne own, if_neg own, if_neg own, add_zero]
  simp only [others, Finset.sum_add_distrib, Finset.sum_ite_eq', Finset.mem_univ, if_true]
  rw [Finset.mul_sum, ← Finset.sum_add_distrib, ← Finset.sum_add_distrib]
  refine Finset.sum_congr rfl fun i _ => ?_
  rw [defect]
  split
  · next own =>
    rw [own]
    ring
  · ring

/-- A pivot adds to the drift what its row operations are off by. -/
theorem Combines.pivot {k : Fin n} (h : Combines A₀ A k P drift)
    (steps : ∀ c, k.val < c.val → ∀ i a, |defect A A' k c i * P i a| ≤ error) (nonneg : 0 ≤ error) :
    Combines A₀ A' (k + 1) (Function.update P k (∑ j, A j (Fin.castAdd n k) • P j))
      (drift + n * error) := by
  have grown : drift ≤ drift + n * error := by
    linarith [mul_nonneg (Nat.cast_nonneg (α := ℚ) n) nonneg]
  refine ⟨fun i less a => ?_, fun i le a => ?_, fun c le a => ?_⟩
  · by_cases own : i = k
    · have column := h.columns (Fin.castAdd n k) le_rfl a
      rw [abs_sub_comm] at column
      rw [own, Function.update_self, Finset.sum_apply, leftHalf]
      simp only [Pi.smul_apply, smul_eq_mul]
      exact column.trans grown
    · have before : i.val < k.val := by
        have apart : i.val ≠ k.val := fun same => own (Fin.ext same)
        omega
      rw [Function.update_of_ne own]
      exact (h.taken i before a).trans grown
  · have own : i ≠ k := by
      rintro rfl
      omega
    rw [Function.update_of_ne own]
    exact h.fresh i (by omega) a
  · rw [sum_update]
    have column := h.columns c (by omega) a
    have defects : |∑ i, defect A A' k c i * P i a| ≤ n * error :=
      abs_sum_le fun i => steps c (by omega) i a
    have split : A₀ a c - (∑ i, A i c * P i a + ∑ i, defect A A' k c i * P i a) =
        A₀ a c - ∑ i, A i c * P i a - ∑ i, defect A A' k c i * P i a := by ring
    rw [split]
    exact (abs_sub _ _).trans (add_le_add column defects)

/-- With a pivot in every one of the first columns, they times what is left in the others are next
to the others. -/
theorem Combines.abs_mul_sub_le (h : Combines A₀ A n P drift)
    (entries : ∀ a c, |A a c| ≤ bound) (i j : Fin n) :
    |(leftHalf A₀ * rightHalf A) i j - rightHalf A₀ i j| ≤ drift * (1 + n * bound) := by
  have column := h.columns (Fin.natAdd n j) (Nat.le_add_right _ _) i
  have vectors : |∑ b, rightHalf A b j * (P b i - leftHalf A₀ i b)| ≤ n * (bound * drift) := by
    refine abs_sum_le fun b => ?_
    rw [abs_mul]
    exact mul_le_mul (entries b _) (h.taken b b.isLt i) (abs_nonneg _)
      ((abs_nonneg _).trans (entries b (Fin.natAdd n j)))
  have whole : (leftHalf A₀ * rightHalf A) i j - rightHalf A₀ i j =
      -(A₀ i (Fin.natAdd n j) - ∑ b, A b (Fin.natAdd n j) * P b i) -
        ∑ b, rightHalf A b j * (P b i - leftHalf A₀ i b) := by
    have product : (leftHalf A₀ * rightHalf A) i j = ∑ b, rightHalf A b j * leftHalf A₀ i b := by
      rw [Matrix.mul_apply]
      exact Finset.sum_congr rfl fun b _ => mul_comm _ _
    rw [product]
    simp only [mul_sub, Finset.sum_sub_distrib, rightHalf]
    ring
  rw [whole]
  have apart := abs_sub (-(A₀ i (Fin.natAdd n j) - ∑ b, A b (Fin.natAdd n j) * P b i))
    (∑ b, rightHalf A b j * (P b i - leftHalf A₀ i b))
  rw [abs_neg] at apart
  linarith

/-! ## Columns without a pivot -/

/-- Taking multiples of other columns from a column keeps the determinant. -/
theorem det_updateCol_sub (A : Matrix (Fin n) (Fin n) ℚ) (k : Fin n) (m : Fin n → ℚ)
    (own : m k = 0) :
    (A.updateCol k fun a => A a k - ∑ i, m i * A a i).det = A.det := by
  have column : (fun a => A a k - ∑ i, m i * A a i) =
      fun a => ∑ i, (if i = k then 1 else -m i) • A a i := by
    funext a
    have terms : ∀ i, (if i = k then 1 else -m i) • A a i =
        (if i = k then A a k else 0) - m i * A a i := by
      intro i
      split
      · next same => rw [same, own, one_smul, zero_mul, sub_zero]
      · rw [smul_eq_mul, neg_mul, zero_sub]
    simp only [terms, Finset.sum_sub_distrib, Finset.sum_ite_eq', Finset.mem_univ, if_true]
  rw [column, det_updateCol_sum, if_pos rfl, one_smul]

/-- How large the determinant may be if a column has no pivot. -/
def pivotlessBound (n : Nat) (bound drift small : ℚ) : ℚ :=
  sensitivity n bound * (drift + n * (bound * drift + small))

/-- If a column is next to zero from its pivot's row on, there is next to no determinant. -/
theorem Combines.abs_det_le {k : Fin n} (h : Combines A₀ A k P drift) (one : 1 ≤ bound)
    (entries₀ : ∀ a c, |A₀ a c| ≤ bound) (entries : ∀ a c, |A a c| ≤ bound)
    (column : ∀ a : Fin n, k ≤ a → |A a (Fin.castAdd n k)| ≤ small) :
    |(leftHalf A₀).det| ≤ pivotlessBound n bound drift small := by
  have driftNonneg : 0 ≤ drift := (abs_nonneg _).trans (h.columns (Fin.castAdd n k) le_rfl k)
  have smallNonneg : 0 ≤ small := (abs_nonneg _).trans (column k le_rfl)
  have boundNonneg : 0 ≤ bound := zero_le_one.trans one
  let m : Fin n → ℚ := fun i => if i < k then A i (Fin.castAdd n k) else 0
  have terms : ∀ i a, |A i (Fin.castAdd n k) * P i a - m i * leftHalf A₀ a i| ≤
      bound * drift + small := by
    intro i a
    by_cases less : i < k
    · have own : m i = A i (Fin.castAdd n k) := if_pos less
      rw [own, ← mul_sub, abs_mul]
      have product := mul_le_mul (entries i (Fin.castAdd n k)) (h.taken i less a) (abs_nonneg _)
        boundNonneg
      linarith
    · have own : m i = 0 := if_neg less
      rw [own, zero_mul, sub_zero, abs_mul]
      have product := mul_le_mul (column i (not_lt.1 less)) (h.fresh i (not_lt.1 less) a)
        (abs_nonneg _) smallNonneg
      linarith [mul_nonneg boundNonneg driftNonneg]
  have rest : ∀ a, |leftHalf A₀ a k - ∑ i, m i * leftHalf A₀ a i| ≤
      drift + n * (bound * drift + small) := by
    intro a
    have near := h.columns (Fin.castAdd n k) le_rfl a
    have sums : |∑ i, (A i (Fin.castAdd n k) * P i a - m i * leftHalf A₀ a i)| ≤
        n * (bound * drift + small) :=
      abs_sum_le fun i => terms i a
    rw [Finset.sum_sub_distrib] at sums
    have together := abs_add_le (A₀ a (Fin.castAdd n k) - ∑ i, A i (Fin.castAdd n k) * P i a)
      (∑ i, A i (Fin.castAdd n k) * P i a - ∑ i, m i * leftHalf A₀ a i)
    rw [sub_add_sub_cancel] at together
    exact together.trans (add_le_add near sums)
  rw [← det_updateCol_sub (leftHalf A₀) k m (if_neg (lt_irrefl k))]
  refine abs_det_le_of_column (j := k) one (fun a b other => ?_) fun a => ?_
  · rw [updateCol_ne other]
    exact entries₀ a _
  · rw [updateCol_self]
    exact rest a

end Reckon.Perturbation
