import Reckon.Proofs.Matrix.TriangularRun

/-!
# The determinant by expansion

Each term of the expansion by minors is off by the error of its cofactor and by those of its own
product and sum, and a term that is passed over was next to nothing. By induction on the size, the
result is close to the determinant, and without error it is the determinant.
-/

namespace Reckon

open Reckon.Perturbation

/-- How far one term of an expansion may be off for each unit of sensitivity. -/
def Tolerance.termError (t : Tolerance) : ℚ :=
  2 * t.error + t.zero

/-- The error of one term is not negative. -/
theorem Tolerance.termError_nonneg (t : Tolerance) : 0 ≤ t.termError := by
  rw [termError]
  linarith [t.error_nonneg, t.zero_nonneg]

/-- The error of one term is within that of a row. -/
theorem Tolerance.termError_le (t : Tolerance) : t.termError ≤ t.rowError := by
  have h : 2 ≤ t.size * (t.size + 1) := by nlinarith [t.one_le_size]
  have grown := mul_le_mul_of_nonneg_right h t.error_nonneg
  rw [termError, rowError]
  linarith

namespace Grid

variable {n : Nat} {t : Tolerance}

/-! ## One term -/

namespace FirstRow

/-- A grid of one row has a first row. -/
scoped instance neZero_one : NeZero 1 :=
  ⟨one_ne_zero⟩

/-- A grid of two rows has a first row. -/
scoped instance neZero_two : NeZero 2 :=
  ⟨two_ne_zero⟩

/-- A grid of three rows or more has a first row. -/
scoped instance (priority := 2000) neZero_add_three (n : Nat) : NeZero (n + 3) :=
  ⟨Nat.succ_ne_zero (n + 2)⟩

end FirstRow

open scoped FirstRow

/-- The expansion after one more column. -/
def expandStep (g : Grid (n + 3) (n + 3)) (total : Option Value) (j : Fin (n + 3)) :
    Except Fault (Option Value) :=
  if (g.entry 0 j).isZero then .ok total
  else
    match expand (g.minor 0 j) with
    | .error fault => .error fault
    | .ok cofactor =>
      match (g.entry 0 j).mul cofactor with
      | .error fault => .error fault
      | .ok term => (addTerm total j term).map some

/-- The expansion of a grid of three rows or more goes through its columns and adds up their terms.
-/
theorem expand_eq_foldlM (g : Grid (n + 3) (n + 3)) :
    g.expand = ((List.finRange (n + 3)).foldlM g.expandStep none).map (·.getD .zero) := by
  have steps : g.expandStep = (fun total j =>
      if (g.entry 0 j).isZero then pure total
      else do
        let cofactor ← expand (g.minor 0 j)
        let term ← (g.entry 0 j).mul cofactor
        some <$> addTerm total j term) := by
    funext total j
    rw [expandStep]
    split
    · rfl
    · cases expand (g.minor 0 j) with
      | error fault => rfl
      | ok cofactor =>
        dsimp only [bind, Except.bind]
        cases (g.entry 0 j).mul cofactor with
        | error fault => rfl
        | ok term => rfl
  rw [expand, steps]
  rfl

/-- Whether a term is added accurately to the terms before it. -/
def addsTermWithin (t : Tolerance) (total : Option Value) (column : Nat) (term : Value) : Bool :=
  match total with
  | none => true
  | some sum =>
    if column % 2 = 1 then t.accepts (sum.rat - term.rat) (sum.sub term)
    else t.accepts (sum.rat + term.rat) (sum.add term)

/-- Whether the term of a column is computed from its cofactor and added accurately. -/
def takesWithin (t : Tolerance) (g : Grid (n + 3) (n + 3)) (total : Option Value)
    (j : Fin (n + 3)) : Bool :=
  match expand (g.minor 0 j) with
  | .error _ => false
  | .ok cofactor =>
    t.accepts ((g.entry 0 j).rat * cofactor.rat) ((g.entry 0 j).mul cofactor) &&
      match (g.entry 0 j).mul cofactor with
      | .error _ => false
      | .ok term => addsTermWithin t total j term

/-- Whether an expansion takes accurate operations only. -/
def expandsWithin (t : Tolerance) : {n : Nat} → Grid n n → Bool
  | 0, _ => true
  | 1, _ => true
  | 2, g =>
    t.accepts ((g.entry 0 0).rat * (g.entry 1 1).rat) ((g.entry 0 0).mul (g.entry 1 1)) &&
      t.accepts ((g.entry 0 1).rat * (g.entry 1 0).rat) ((g.entry 0 1).mul (g.entry 1 0)) &&
      match (g.entry 0 0).mul (g.entry 1 1), (g.entry 0 1).mul (g.entry 1 0) with
      | .ok ad, .ok bc => t.accepts (ad.rat - bc.rat) (ad.sub bc)
      | _, _ => false
  | n + 3, g =>
    passes (fun total j =>
        t.separates (g.entry 0 j) &&
          ((g.entry 0 j).isZero || expandsWithin t (g.minor 0 j) && g.takesWithin t total j))
      g.expandStep (List.finRange (n + 3)) none

/-- The terms that were added up so far. -/
def soFar (total : Option Value) : ℚ :=
  (total.getD .zero).rat

/-- Before the first term the sum is zero. -/
theorem soFar_none : soFar none = 0 := by
  decide

/-- Before the first term the sum is zero without an error. -/
theorem soFar_none_near : |soFar none - 0| ≤ 0 := by
  rw [soFar_none, sub_zero, abs_zero]

/-- A term that is added within the tolerance changes the sum by the signed term, up to the error of
one operation. -/
theorem exists_addTerm {total : Option Value} {column : Nat} {term : Value}
    (numbers : ∀ v ∈ total, v.isNumeric = true) (numeric : term.isNumeric = true)
    (run : addsTermWithin t total column term = true) :
    ∃ v, addTerm total column term = .ok v ∧ v.isNumeric = true ∧
      |v.rat - (soFar total + (-1) ^ column * term.rat)| ≤ t.error := by
  have sign : (-1 : ℚ) ^ column = if column % 2 = 1 then -1 else 1 := by
    split
    · next odd => exact Odd.neg_one_pow (Nat.odd_iff.2 odd)
    · next even => exact Even.neg_one_pow (Nat.even_iff.2 (by omega))
  rw [sign]
  cases total with
  | none =>
    rw [addTerm, soFar_none]
    split
    · refine ⟨term.negate, rfl, ?_, ?_⟩
      · obtain ⟨d, rfl, _⟩ := Value.standsFor_rat numeric
        rfl
      · rw [Value.rat_negate numeric, zero_add, neg_one_mul, sub_self, abs_zero]
        exact t.error_nonneg
    · refine ⟨term, rfl, numeric, ?_⟩
      rw [zero_add, one_mul, sub_self, abs_zero]
      exact t.error_nonneg
  | some sum =>
    rw [addsTermWithin] at run
    rw [addTerm, show soFar (some sum) = sum.rat from rfl]
    split
    · next odd =>
      rw [if_pos odd] at run
      rw [neg_one_mul, ← sub_eq_add_neg]
      exact Tolerance.exists_of_accepts run
    · next even =>
      rw [if_neg even] at run
      rw [one_mul]
      exact Tolerance.exists_of_accepts run

/-! ## Minors -/

/-- The rationals of a minor are the minor of the rationals. -/
theorem rational_minor (g : Grid (n + 1) (n + 1)) (j : Fin (n + 1)) :
    (g.minor 0 j).rational = g.rational.submatrix Fin.succ j.succAbove := by
  funext a b
  have row : skip 0 a = a.succ := if_neg (Nat.not_lt_zero _)
  have column : skip j b = j.succAbove b := by
    rw [skip, Fin.succAbove]
    rfl
  rw [rational, minor, removeColumn, removeRow, entry_ofFn, entry_ofFn, row, column,
    Matrix.submatrix_apply, rational]

/-- A minor is within the tolerance that the grid is in. -/
theorem isWithin_minor {g : Grid (n + 1) (n + 1)} (within : g.isWithin t = true)
    (j : Fin (n + 1)) : (g.minor 0 j).isWithin t = true := by
  refine isWithin_iff.2 fun a b => ?_
  rw [rational, minor, removeColumn, removeRow, entry_ofFn, entry_ofFn]
  exact isWithin_iff.1 within _ _

/-! ## All terms -/

/-- How far one term of an expansion may be off, its cofactor included. -/
def columnError (t : Tolerance) (n : Nat) (cofactorError : ℚ) : ℚ :=
  t.size * cofactorError + 2 * t.error + t.zero * sensitivity n t.size

/-- The term of a column in the expansion of the determinant. -/
def exactTerm (g : Grid (n + 1) (n + 1)) (j : Fin (n + 1)) : ℚ :=
  (-1) ^ j.val * g.rational 0 j * (g.minor 0 j).rational.det

/-- The sign of a term does not change its size. -/
theorem abs_neg_one_pow_mul (k : Nat) (q : ℚ) : |(-1) ^ k * q| = |q| := by
  rw [abs_mul, abs_pow, abs_neg, abs_one, one_pow, one_mul]

/-- A term that is passed over was next to nothing. -/
theorem abs_exactTerm_le {g : Grid (n + 1) (n + 1)} (within : g.isWithin t = true)
    {j : Fin (n + 1)} (small : |g.rational 0 j| ≤ t.zero) :
    |g.exactTerm j| ≤ t.zero * sensitivity n t.size := by
  have minors := abs_det_le fun a b => (isWithin_iff.1 (isWithin_minor within j) a b).2
  rw [exactTerm, mul_assoc, abs_neg_one_pow_mul, abs_mul]
  exact mul_le_mul small minors (abs_nonneg _) t.zero_nonneg

/-- A step of an expansion adds the term of its column, off by little. -/
theorem exists_expandStep {g : Grid (n + 3) (n + 3)} (within : g.isWithin t = true)
    {error : ℚ} (nonneg : 0 ≤ error) {total : Option Value} {j : Fin (n + 3)}
    (numbers : ∀ v ∈ total, v.isNumeric = true)
    (tested : t.separates (g.entry 0 j) = true)
    (run : (g.entry 0 j).isZero = true ∨ g.takesWithin t total j = true ∧
      ∃ v, (g.minor 0 j).expand = .ok v ∧ v.isNumeric = true ∧
        |v.rat - (g.minor 0 j).rational.det| ≤ error) :
    ∃ total', g.expandStep total j = .ok total' ∧ (∀ v ∈ total', v.isNumeric = true) ∧
      |soFar total' - (soFar total + g.exactTerm j)| ≤ columnError t (n + 2) error := by
  have entry := isWithin_iff.1 within 0 j
  have sensitive : 0 ≤ t.zero * sensitivity (n + 2) t.size :=
    mul_nonneg t.zero_nonneg (sensitivity_nonneg _ t.size_nonneg)
  rw [expandStep]
  cases zero : (g.entry 0 j).isZero with
  | true =>
    refine ⟨total, if_pos rfl, numbers, ?_⟩
    have small := abs_exactTerm_le within
      (Tolerance.abs_rat_le_of_isZero entry.1 tested zero)
    rw [sub_add_cancel_left, abs_neg, columnError]
    linarith [mul_nonneg t.size_nonneg nonneg, t.error_nonneg]
  | false =>
    obtain ⟨takes, cofactor, expanded, numeric, near⟩ :=
      run.resolve_left (by rw [zero]; exact Bool.false_ne_true)
    rw [takesWithin, expanded, Bool.and_eq_true] at takes
    obtain ⟨term, product, numeric', nearTerm⟩ := Tolerance.exists_of_accepts takes.1
    have adds := takes.2
    simp only [product] at adds
    obtain ⟨sum, added, numeric'', nearSum⟩ := exists_addTerm numbers numeric' adds
    refine ⟨some sum, ?_, fun v mem => ?_, ?_⟩
    · simp only [expanded, product, added]
      rfl
    · cases mem
      exact numeric''
    · have passed : |(-1) ^ j.val * (g.rational 0 j * (cofactor.rat - (g.minor 0 j).rational.det))| ≤
          t.size * error := by
        rw [abs_neg_one_pow_mul, abs_mul]
        exact mul_le_mul entry.2 near (abs_nonneg _) t.size_nonneg
      have product' : |(-1) ^ j.val * (term.rat - g.rational 0 j * cofactor.rat)| ≤ t.error := by
        rw [abs_neg_one_pow_mul]
        exact nearTerm
      have first := abs_add_le (sum.rat - (soFar total + (-1) ^ j.val * term.rat))
        ((-1) ^ j.val * (term.rat - g.rational 0 j * cofactor.rat))
      have second := abs_add_le
        (sum.rat - (soFar total + (-1) ^ j.val * term.rat) +
          (-1) ^ j.val * (term.rat - g.rational 0 j * cofactor.rat))
        ((-1) ^ j.val * (g.rational 0 j * (cofactor.rat - (g.minor 0 j).rational.det)))
      have split : sum.rat - (soFar total + (-1) ^ j.val * term.rat) +
          (-1) ^ j.val * (term.rat - g.rational 0 j * cofactor.rat) +
          (-1) ^ j.val * (g.rational 0 j * (cofactor.rat - (g.minor 0 j).rational.det)) =
            soFar (some sum) - (soFar total + g.exactTerm j) := by
        rw [exactTerm, show soFar (some sum) = sum.rat from rfl]
        ring
      rw [split] at second
      rw [columnError]
      linarith

/-- The errors of the columns add up. -/
theorem exists_expandSum {g : Grid (n + 3) (n + 3)} (within : g.isWithin t = true)
    {error : ℚ} (nonneg : 0 ≤ error)
    (minors : ∀ j, expandsWithin t (g.minor 0 j) = true → ∃ v, (g.minor 0 j).expand = .ok v ∧
      v.isNumeric = true ∧ |v.rat - (g.minor 0 j).rational.det| ≤ error)
    {places : List (Fin (n + 3))} {total : Option Value} {exact off : ℚ}
    (numbers : ∀ v ∈ total, v.isNumeric = true) (near : |soFar total - exact| ≤ off)
    (run : passes (fun total j =>
        t.separates (g.entry 0 j) &&
          ((g.entry 0 j).isZero || expandsWithin t (g.minor 0 j) && g.takesWithin t total j))
      g.expandStep places total = true) :
    ∃ total', places.foldlM g.expandStep total = .ok total' ∧ (∀ v ∈ total', v.isNumeric = true) ∧
      |soFar total' - (exact + (places.map g.exactTerm).sum)| ≤
        off + places.length * columnError t (n + 2) error := by
  induction places generalizing total exact off with
  | nil => exact ⟨total, rfl, numbers, by simpa using near⟩
  | cons j places ih =>
    rw [passes, Bool.and_eq_true, Bool.and_eq_true, Bool.or_eq_true, Bool.and_eq_true] at run
    obtain ⟨⟨tested, steps⟩, later⟩ := run
    obtain ⟨total', stepped, numbers', near'⟩ := exists_expandStep within nonneg numbers tested
      (steps.imp_right fun takes => ⟨takes.2, minors j takes.1⟩)
    simp only [stepped] at later
    have close : |soFar total' - (exact + g.exactTerm j)| ≤
        off + columnError t (n + 2) error := by
      have together := abs_add_le (soFar total' - (soFar total + g.exactTerm j))
        (soFar total - exact)
      have split : soFar total' - (soFar total + g.exactTerm j) + (soFar total - exact) =
          soFar total' - (exact + g.exactTerm j) := by ring
      rw [split] at together
      linarith
    obtain ⟨total'', rest, numbers'', near''⟩ := ih numbers' close later
    refine ⟨total'', ?_, numbers'', ?_⟩
    · rw [List.foldlM_cons, stepped]
      exact rest
    · rw [List.map_cons, List.sum_cons, ← add_assoc, List.length_cons]
      push_cast
      linarith

/-! ## The determinant -/

/-- How far the expansion of a matrix may be off. -/
def expansionError (t : Tolerance) (n : Nat) : ℚ :=
  n * (sensitivity n t.size * t.termError)

/-- The error of an expansion is not negative. -/
theorem expansionError_nonneg (t : Tolerance) (n : Nat) : 0 ≤ expansionError t n :=
  mul_nonneg (Nat.cast_nonneg n)
    (mul_nonneg (sensitivity_nonneg n t.size_nonneg) t.termError_nonneg)

/-- How much an expansion magnifies errors, from one size to the next. -/
theorem sensitivity_succ (n : Nat) (bound : ℚ) :
    sensitivity (n + 1) bound = (n + 1) * bound * sensitivity n bound := by
  rw [sensitivity, sensitivity, Nat.factorial_succ, pow_succ]
  push_cast
  ring

/-- With one more row, all columns together stay within the bound. -/
theorem columnError_le (t : Tolerance) (n : Nat) :
    (n + 1 : Nat) * columnError t n (expansionError t n) ≤ expansionError t (n + 1) := by
  have least : 1 ≤ t.size * sensitivity n t.size :=
    one_le_mul_of_one_le_of_one_le t.one_le_size
      ((one_le_pow₀ t.one_le_size).trans (pow_le_sensitivity n t.size_nonneg))
  have errors : 2 * t.error ≤ t.size * sensitivity n t.size * (2 * t.error) :=
    le_mul_of_one_le_left (by linarith [t.error_nonneg]) least
  have zeros : t.zero * sensitivity n t.size ≤ t.size * sensitivity n t.size * t.zero := by
    have grown := mul_le_mul_of_nonneg_right t.one_le_size
      (mul_nonneg (sensitivity_nonneg n t.size_nonneg) t.zero_nonneg)
    linarith
  have one : columnError t n (expansionError t n) ≤ sensitivity (n + 1) t.size * t.termError := by
    rw [columnError, expansionError, sensitivity_succ, Tolerance.termError]
    linarith
  rw [expansionError]
  exact mul_le_mul_of_nonneg_left one (Nat.cast_nonneg _)

/-- The determinant is the sum of the exact terms along the first row. -/
theorem det_eq_sum_exactTerm (g : Grid (n + 1) (n + 1)) :
    g.rational.det = ((List.finRange (n + 1)).map g.exactTerm).sum := by
  rw [Matrix.det_succ_row_zero, Fin.sum_univ_def]
  congr 2
  funext j
  rw [exactTerm, rational_minor]

/-- With two rows, both products and their difference are off. -/
theorem exists_expand_two {g : Grid 2 2} (run : expandsWithin t g = true) :
    ∃ v, g.expand = .ok v ∧ v.isNumeric = true ∧
      |v.rat - g.rational.det| ≤ expansionError t 2 := by
  rw [expandsWithin, Bool.and_eq_true, Bool.and_eq_true] at run
  obtain ⟨⟨left, right⟩, subtracts⟩ := run
  obtain ⟨ad, product, _, nearLeft⟩ := Tolerance.exists_of_accepts left
  obtain ⟨bc, product', _, nearRight⟩ := Tolerance.exists_of_accepts right
  simp only [product, product'] at subtracts
  obtain ⟨v, difference, numeric, near⟩ := Tolerance.exists_of_accepts subtracts
  refine ⟨v, ?_, numeric, ?_⟩
  · rw [expand, product, product']
    exact difference
  · have least : 1 ≤ sensitivity 2 t.size :=
      (one_le_pow₀ t.one_le_size).trans (pow_le_sensitivity 2 t.size_nonneg)
    have grown : t.termError ≤ sensitivity 2 t.size * t.termError :=
      le_mul_of_one_le_left t.termError_nonneg least
    have exact : g.rational.det =
        (g.entry 0 0).rat * (g.entry 1 1).rat - (g.entry 0 1).rat * (g.entry 1 0).rat :=
      Matrix.det_fin_two _
    rw [expansionError, exact]
    rw [Tolerance.termError] at grown ⊢
    push_cast
    rw [abs_le] at nearLeft nearRight near ⊢
    constructor <;> linarith [nearLeft.1, nearLeft.2, nearRight.1, nearRight.2, near.1, near.2,
      t.error_nonneg, t.zero_nonneg]

/-- The expansion is close to the determinant. -/
theorem exists_expand {g : Grid n n} (within : g.isWithin t = true)
    (run : expandsWithin t g = true) :
    ∃ v, g.expand = .ok v ∧ v.isNumeric = true ∧
      |v.rat - g.rational.det| ≤ expansionError t n := by
  induction n using Nat.strongRecOn with
  | _ n ih =>
    match n, g with
    | 0, g =>
      refine ⟨.one, rfl, rfl, ?_⟩
      rw [Matrix.det_fin_zero, show Value.one.rat = 1 by decide, sub_self, abs_zero]
      exact expansionError_nonneg t 0
    | 1, g =>
      refine ⟨g.entry 0 0, rfl, (isWithin_iff.1 within 0 0).1, ?_⟩
      rw [Matrix.det_fin_one, rational, sub_self, abs_zero]
      exact expansionError_nonneg t 1
    | 2, g => exact exists_expand_two run
    | n + 3, g =>
      obtain ⟨total, folded, numbers, near⟩ := exists_expandSum within
        (expansionError_nonneg t (n + 2))
        (fun j minor => ih (n + 2) (Nat.lt_succ_self _) (isWithin_minor within j) minor)
        (fun _ none => by cases none) soFar_none_near run
      refine ⟨total.getD .zero, ?_, ?_, ?_⟩
      · rw [expand_eq_foldlM, folded]
        rfl
      · cases total with
        | none => rfl
        | some v => exact numbers v rfl
      · rw [zero_add, zero_add, List.length_finRange, ← det_eq_sum_exactTerm] at near
        exact near.trans (columnError_le t (n + 2))

end Grid

end Reckon
