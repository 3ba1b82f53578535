import Reckon.Proofs.Decimal.Places
import Reckon.Proofs.Matrix.Tolerance

/-!
# The determinant of the triangular form

Each step towards the triangular form moves the determinant by little, and so does every product
along the diagonal. A column without a pivot leaves next to no determinant, and next to nothing on
the diagonal either. The determinant that is read off the triangular form is close to that of the
matrix, and without error it is the same.
-/

namespace Reckon

open Reckon.Perturbation Reckon.Echelon

/-- How far a determinant may move when one row is changed. -/
def Tolerance.determinantError (t : Tolerance) (n : Nat) : ℚ :=
  sensitivity n t.size * t.rowError

/-- The error of a determinant is not negative. -/
theorem Tolerance.determinantError_nonneg (t : Tolerance) (n : Nat) :
    0 ≤ t.determinantError n :=
  mul_nonneg (sensitivity_nonneg n t.size_nonneg) t.rowError_nonneg

namespace Grid

variable {n : Nat} {g g' : Grid n n} {t : Tolerance} {k i : Fin n}

/-! ## Clearing one entry -/

/-- Whether clearing an entry below a pivot takes accurate operations only. -/
def clearsBelowWithin (t : Tolerance) (k : Fin n) (reciprocal : Value) (g : Grid n n) (i : Fin n) :
    Bool :=
  t.separates (g.entry i k) &&
    ((g.entry i k).isZero ||
      t.accepts ((g.entry i k).rat * reciprocal.rat) ((g.entry i k).mul reciprocal) &&
        match (g.entry i k).mul reciprocal with
        | .error _ => false
        | .ok quotient => g.addsWithin t i k quotient.negate) &&
    match clearBelow k reciprocal g i with
    | .error _ => false
    | .ok g => g.isWithin t

/-- What clearing an entry below a pivot does. -/
structure RowCleared (t : Tolerance) (g g' : Grid n n) (k i : Fin n) : Prop where
  others : ∀ a b, a ≠ i → g'.entry a b = g.entry a b
  det : |g'.rational.det - g.rational.det| ≤ t.determinantError n
  entry : g'.rational i k = 0
  zeros : ∀ b, g.rational i b = 0 → g.rational k b = 0 → g'.rational i b = 0

/-- A grid in which one row is close to the given one is near in that row. -/
theorem rowNear_of_others {row : Fin n → ℚ} {error : ℚ}
    (others : ∀ a b, a ≠ i → g'.entry a b = g.entry a b)
    (near : ∀ b, |g'.rational i b - row b| ≤ error) :
    RowNear g.rational g'.rational i row error := by
  refine ⟨fun a other => ?_, near⟩
  funext b
  rw [rational, rational, others a b other]

/-- An entry that is taken for zero is set to zero. -/
theorem rowCleared_of_isZero (within : g.isWithin t = true) (below : k < i)
    (tested : t.separates (g.entry i k) = true) (zero : (g.entry i k).isZero = true) :
    RowCleared t g (g.set i k .zero) k i := by
  have entries := isWithin_iff.1 within
  have small : |g.rational i k| ≤ t.zero :=
    Tolerance.abs_rat_le_of_isZero (entries i k).1 tested zero
  have near : RowNear g.rational (g.set i k .zero).rational i
      (g.rational i + (0 : ℚ) • g.rational k) t.rowError := by
    refine rowNear_of_others (fun a b other => entry_set_of_ne b .zero other) fun b => ?_
    rw [rational_set, zero_smul, add_zero]
    by_cases own : k = b
    · rw [if_pos ⟨rfl, own⟩, ← own, show Value.zero.rat = 0 by decide, zero_sub, abs_neg]
      exact small.trans t.zero_le_rowError
    · rw [if_neg fun here => own here.2, sub_self, abs_zero]
      exact t.rowError_nonneg
  refine ⟨fun a b other => entry_set_of_ne b .zero other, ?_, ?_, fun b zero' _ => ?_⟩
  · exact near.abs_det_sub_le_of_add (Fin.ne_of_gt below) t.one_le_size fun a b => (entries a b).2
  · rw [rational_set, if_pos ⟨rfl, rfl⟩]
    decide
  · rw [rational_set]
    split
    · decide
    · exact zero'

/-- With an accurate reciprocal and an accurate quotient, next to nothing is left of an entry. -/
theorem abs_add_mul_le {p a r q : ℚ} (pivot : p ≠ 0) (sizeP : |p| ≤ t.size) (sizeA : |a| ≤ t.size)
    (reciprocal : |r - p⁻¹| ≤ t.error) (quotient : |q - a * r| ≤ t.error) :
    |a + -q * p| ≤ t.rowError := by
  have split : a + -q * p = -(a * p * (r - p⁻¹)) - p * (q - a * r) := by
    field_simp
    ring
  have first : |a * p * (r - p⁻¹)| ≤ t.size * t.size * t.error := by
    rw [abs_mul, abs_mul]
    exact mul_le_mul (mul_le_mul sizeA sizeP (abs_nonneg p) t.size_nonneg) reciprocal
      (abs_nonneg _) (mul_nonneg t.size_nonneg t.size_nonneg)
  have second : |p * (q - a * r)| ≤ t.size * t.error := by
    rw [abs_mul]
    exact mul_le_mul sizeP quotient (abs_nonneg _) t.size_nonneg
  have together := abs_sub (-(a * p * (r - p⁻¹))) (p * (q - a * r))
  rw [split, Tolerance.rowError]
  rw [abs_neg] at together
  linarith [t.zero_nonneg]

/-- Clearing an entry below a pivot. -/
theorem exists_clearBelow {reciprocal : Value} (within : g.isWithin t = true) (below : k < i)
    (pivot : g.rational k k ≠ 0) (near : |reciprocal.rat - (g.rational k k)⁻¹| ≤ t.error)
    (run : clearsBelowWithin t k reciprocal g i = true) :
    ∃ g', clearBelow k reciprocal g i = .ok g' ∧ g'.isWithin t = true ∧ RowCleared t g g' k i := by
  have entries := isWithin_iff.1 within
  rw [clearsBelowWithin, Bool.and_eq_true, Bool.and_eq_true, Bool.or_eq_true] at run
  obtain ⟨⟨tested, steps⟩, result⟩ := run
  cases zero : (g.entry i k).isZero with
  | true =>
    have done : clearBelow k reciprocal g i = .ok (g.set i k .zero) := by
      rw [clearBelow, zero, if_pos rfl]
    simp only [done] at result
    exact ⟨_, done, result, rowCleared_of_isZero within below tested zero⟩
  | false =>
    rw [zero, Bool.and_eq_true] at steps
    obtain ⟨divided, adds⟩ := steps.resolve_left Bool.false_ne_true
    obtain ⟨q, quotient, numeric, nearQuotient⟩ := Tolerance.exists_of_accepts divided
    simp only [quotient] at adds
    obtain ⟨g₁, added, becomes, zeros⟩ := exists_addScaledRow_of_within adds
    have done : clearBelow k reciprocal g i = .ok (g₁.set i k .zero) := by
      rw [clearBelow, zero, if_neg Bool.false_ne_true, quotient]
      simp only [bind, Except.bind, added]
    simp only [done] at result
    have others : ∀ a b, a ≠ i → (g₁.set i k .zero).entry a b = g.entry a b := fun a b other => by
      rw [entry_set_of_ne b .zero other, becomes.others a b other]
    have row : RowNear g.rational (g₁.set i k .zero).rational i
        (g.rational i + q.negate.rat • g.rational k) t.rowError := by
      refine rowNear_of_others others fun b => ?_
      rw [rational_set]
      by_cases own : k = b
      · rw [if_pos ⟨rfl, own⟩, ← own, show Value.zero.rat = 0 by decide, zero_sub, abs_neg,
          Pi.add_apply, Pi.smul_apply, smul_eq_mul, Value.rat_negate numeric]
        exact abs_add_mul_le pivot (entries k k).2 (entries i k).2 near nearQuotient
      · rw [if_neg fun here => own here.2]
        exact (becomes.near b).trans t.two_error_le
    refine ⟨_, done, result, others, ?_, ?_, fun b zero' zero'' => ?_⟩
    · exact row.abs_det_sub_le_of_add (Fin.ne_of_gt below) t.one_le_size fun a b => (entries a b).2
    · rw [rational_set, if_pos ⟨rfl, rfl⟩]
      decide
    · rw [rational_set]
      split
      · decide
      · exact zeros b (entries i b).1 (entries k b).1 zero' zero''

/-! ## Clearing a column -/

/-- Whether clearing a column below a pivot takes accurate operations only. -/
def clearsColumnWithin (t : Tolerance) (g : Grid n n) (k : Fin n) : Bool :=
  t.accepts (g.entry k k).rat⁻¹ (Value.one.div (g.entry k k)) &&
    match Value.one.div (g.entry k k) with
    | .error _ => false
    | .ok reciprocal =>
      passes (clearsBelowWithin t k reciprocal) (clearBelow k reciprocal) (targets true k).reverse g

/-- What going through some columns up to one does: it keeps the rows above, it keeps columns that
are cleared, and each step that it takes moves the determinant by little. -/
structure ColumnStep (t : Tolerance) (g g' : Grid n n) (k : Fin n) (steps : Nat) : Prop where
  within : g'.isWithin t = true
  above : ∀ a b, a < k → g'.entry a b = g.entry a b
  det : |g'.rational.det - g.rational.det| ≤ steps * t.determinantError n
  zeros : ∀ b, (∀ a, k ≤ a → g.rational a b = 0) → ∀ a, k ≤ a → g'.rational a b = 0

/-- The rows that were cleared so far, those that are left being cleared later. -/
structure ColumnPart (t : Tolerance) (g : Grid n n) (k : Fin n) (total : Nat)
    (left : List (Fin n)) (g' : Grid n n) : Prop where
  below : ∀ i ∈ left, k < i
  fewer : left.length ≤ total
  step : ColumnStep t g g' k (total - left.length)
  own : ∀ b, g'.entry k b = g.entry k b
  column : ∀ a, k < a → a ∉ left → g'.rational a k = 0

/-- The rows that are cleared below a pivot are those below it. -/
theorem mem_targets_below : i ∈ (targets true k).reverse ↔ k < i := by
  rw [List.mem_reverse, mem_targets]
  simp

/-- Rows that are cleared are fewer than all rows. -/
theorem length_targets_lt (k : Fin n) : (targets true k).reverse.length < n := by
  have shorter : (targets true k).length < (List.finRange n).length := by
    refine List.length_filter_lt_length_iff_exists.2 ⟨k, List.mem_finRange k, ?_⟩
    simp
  rwa [List.length_finRange, ← List.length_reverse] at shorter

/-- One row more is cleared, and one less is left. -/
theorem ColumnPart.clear {total : Nat} {left : List (Fin n)} {g'' : Grid n n}
    (h : ColumnPart t g k total (i :: left) g') (within : g''.isWithin t = true)
    (cleared : RowCleared t g' g'' k i) : ColumnPart t g k total left g'' := by
  have below : k < i := h.below i List.mem_cons_self
  have fewer := h.fewer
  rw [List.length_cons] at fewer
  have steps : total - left.length = total - (i :: left).length + 1 := by
    rw [List.length_cons]
    omega
  refine ⟨fun a mem => h.below a (List.mem_cons_of_mem i mem), by omega,
    ⟨within, fun a b above => ?_, ?_, fun b zero a low => ?_⟩, fun b => ?_, fun a low other => ?_⟩
  · rw [cleared.others a b (Fin.ne_of_lt (above.trans below)), h.step.above a b above]
  · have together := abs_add_le (g''.rational.det - g'.rational.det)
      (g'.rational.det - g.rational.det)
    rw [sub_add_sub_cancel] at together
    rw [steps, Nat.cast_succ]
    linarith [cleared.det, h.step.det]
  · by_cases same : a = i
    · rw [same]
      exact cleared.zeros b (h.step.zeros b zero i below.le) (h.step.zeros b zero k le_rfl)
    · rw [rational, cleared.others a b same]
      exact h.step.zeros b zero a low
  · rw [cleared.others k b (Fin.ne_of_lt below), h.own b]
  · by_cases same : a = i
    · rw [same]
      exact cleared.entry
    · rw [rational, cleared.others a k same]
      refine h.column a low fun mem => ?_
      exact (List.mem_cons.1 mem).elim same other

/-- Clearing a column below a pivot. -/
theorem exists_clearColumnBelow (within : g.isWithin t = true)
    (run : g.clearsColumnWithin t k = true) :
    ∃ g', g.clearColumnBelow k = .ok g' ∧ ColumnStep t g g' k (n - 1) ∧
      ∀ a, k < a → g'.rational a k = 0 := by
  have shorter := length_targets_lt k
  rw [clearsColumnWithin, Bool.and_eq_true] at run
  obtain ⟨r, reciprocal, _, near⟩ := Tolerance.exists_of_accepts run.1
  have pivot : g.rational k k ≠ 0 :=
    Value.rat_ne_zero_of_div (isWithin_iff.1 within k k).1 reciprocal
  have steps := run.2
  simp only [reciprocal] at steps
  have start : ColumnPart t g k (n - 1) (targets true k).reverse g := by
    refine ⟨fun a mem => mem_targets_below.1 mem, by omega,
      ⟨within, fun _ _ _ => rfl, ?_, fun b zero a low => zero a low⟩, fun _ => rfl,
      fun a low other => absurd (mem_targets_below.2 low) other⟩
    rw [sub_self, abs_zero]
    exact mul_nonneg (Nat.cast_nonneg _) (t.determinantError_nonneg n)
  obtain ⟨g', done, part⟩ := exists_of_passes (I := ColumnPart t g k (n - 1))
    (fun a as b part check => by
      have ownPivot : b.rational k k = g.rational k k := by rw [rational, part.own k, ← rational]
      obtain ⟨b', step, within', cleared⟩ := exists_clearBelow part.step.within
        (part.below a List.mem_cons_self) (ownPivot ▸ pivot) (ownPivot ▸ near) check
      exact ⟨b', step, part.clear within' cleared⟩) start steps
  refine ⟨g', ?_, part.step, fun a low => part.column a low (List.not_mem_nil)⟩
  rw [clearColumnBelow, reciprocal]
  exact done

/-! ## Going through a column -/

/-- Whether one column is gone through with accurate operations only. All entries from the diagonal
on are tested for zero. -/
def triangularWithin (t : Tolerance) (g : Grid n n) (k : Fin n) : Bool :=
  ((List.finRange n).all fun a => decide (a < k) || t.separates (g.entry a k)) &&
    if (g.entry k k).isZero then
      match g.findPivot? k (k.val + 1) with
      | none => true
      | some pivot =>
        (g.swapRows k pivot).scalesWithin t k .negOne &&
          match orFault ((g.swapRows k pivot).scaleRow k .negOne) with
          | .error _ => false
          | .ok g => g.isWithin t && g.clearsColumnWithin t k
    else g.clearsColumnWithin t k

/-- Exchanging two rows and changing the sign of one of them keeps the determinant. -/
theorem det_exchanged_neg (A : Matrix (Fin n) (Fin n) ℚ) {a b : Fin n} (apart : a ≠ b) :
    ((exchanged A a b).updateRow a ((-1 : ℚ) • exchanged A a b a)).det = A.det := by
  have permuted : (exchanged A a b).det = -A.det := by
    have h : (exchanged A a b).det = _ := Matrix.det_permute (Equiv.swap a b) A
    rw [h, Equiv.Perm.sign_swap apart, Units.val_neg, Units.val_one, Int.cast_neg, Int.cast_one,
      neg_one_mul]
  rw [Matrix.det_updateRow_smul, Matrix.updateRow_eq_self, permuted]
  ring

/-- Bringing up a row and changing its sign. -/
theorem exists_bringUp {pivot : Fin n} (within : g.isWithin t = true) (below : k < pivot)
    (run : (g.swapRows k pivot).scalesWithin t k .negOne = true) :
    ∃ g', orFault ((g.swapRows k pivot).scaleRow k .negOne) = .ok g' ∧
      (g'.isWithin t = true → ColumnStep t g g' k 1) := by
  have entries := isWithin_iff.1 within
  obtain ⟨g', done, becomes, zeros⟩ := exists_scaleRow_of_within run
  have apart : k ≠ pivot := Fin.ne_of_lt below
  have swapped := isWithin_iff.1 (isWithin_swapRows within k pivot)
  have near : RowNear (g.swapRows k pivot).rational g'.rational k
      ((-1 : ℚ) • (g.swapRows k pivot).rational k) t.rowError :=
    rowNear_of_others becomes.others fun b => (becomes.near b).trans t.error_le_rowError
  refine ⟨g', done, fun within' => ⟨within', fun a b above => ?_, ?_, fun b zero a low => ?_⟩⟩
  · rw [becomes.others a b (Fin.ne_of_lt above), entry_swapRows, if_neg (Fin.ne_of_lt above),
      if_neg (Fin.ne_of_lt (above.trans below))]
  · have moved := near.abs_det_sub_le t.one_le_size fun a b => (swapped a b).2
    rw [rational_swapRows, det_exchanged_neg g.rational apart] at moved
    rw [Nat.cast_one, one_mul]
    exact moved
  · have zeroSwapped : ∀ a, k ≤ a → (g.swapRows k pivot).rational a b = 0 := by
      intro a low
      rw [rational, entry_swapRows]
      split
      · exact zero pivot below.le
      · split
        · exact zero k le_rfl
        · exact zero a low
    by_cases own : a = k
    · rw [own]
      exact zeros b (swapped k b).1 (zeroSwapped k le_rfl)
    · rw [rational, becomes.others a b own]
      exact zeroSwapped a low

/-- Steps through a column and further ones are steps through it. -/
theorem ColumnStep.trans {g'' : Grid n n} {steps steps' : Nat} (h : ColumnStep t g g' k steps)
    (h' : ColumnStep t g' g'' k steps') : ColumnStep t g g'' k (steps + steps') := by
  refine ⟨h'.within, fun a b above => ?_, ?_, fun b zero => h'.zeros b (h.zeros b zero)⟩
  · rw [h'.above a b above, h.above a b above]
  · have together := abs_add_le (g''.rational.det - g'.rational.det)
      (g'.rational.det - g.rational.det)
    rw [sub_add_sub_cancel] at together
    rw [Nat.cast_add]
    linarith [h.det, h'.det]

/-- A bound on the number of steps may be raised. -/
theorem ColumnStep.mono {steps steps' : Nat} (h : ColumnStep t g g' k steps)
    (le : steps ≤ steps') : ColumnStep t g g' k steps' := by
  refine ⟨h.within, h.above, h.det.trans ?_, h.zeros⟩
  exact mul_le_mul_of_nonneg_right (by exact_mod_cast le) (t.determinantError_nonneg n)

/-- Going through a column clears it below the diagonal, unless there is next to nothing in it from
the diagonal on. -/
theorem exists_triangularStep (within : g.isWithin t = true)
    (run : g.triangularWithin t k = true) :
    ∃ g', g.triangularStep k = .ok g' ∧ ColumnStep t g g' k n ∧
      ((∀ a, k < a → g'.rational a k = 0) ∨ ∀ a, k ≤ a → |g'.rational a k| ≤ t.zero) := by
  have positive : 0 < n := k.pos
  have entries := isWithin_iff.1 within
  rw [triangularWithin, Bool.and_eq_true, List.all_eq_true] at run
  obtain ⟨tested, steps⟩ := run
  rw [triangularStep]
  cases zero : (g.entry k k).isZero with
  | false =>
    rw [zero, if_neg Bool.false_ne_true] at steps
    rw [if_neg Bool.false_ne_true]
    obtain ⟨g', done, step, column⟩ := exists_clearColumnBelow within steps
    exact ⟨g', done, step.mono (by omega), .inl column⟩
  | true =>
    rw [zero, if_pos rfl] at steps
    rw [if_pos rfl]
    cases found : g.findPivot? k (k.val + 1) with
    | none =>
      refine ⟨g, rfl, ⟨within, fun _ _ _ => rfl, ?_, fun b zero a low => zero a low⟩,
        .inr fun a low => ?_⟩
      · rw [sub_self, abs_zero]
        exact mul_nonneg (Nat.cast_nonneg _) (t.determinantError_nonneg n)
      · have clear := tested a (List.mem_finRange a)
        rw [Bool.or_eq_true, decide_eq_true_eq] at clear
        refine Tolerance.abs_rat_le_of_isZero (entries a k).1
          (clear.resolve_left (not_lt.2 low)) ?_
        rcases low.eq_or_lt with same | below
        · rw [← same]
          exact zero
        · exact isZero_of_findPivot?_eq_none found below
    | some pivot =>
      have below : k < pivot := (of_findPivot?_eq_some found).1
      simp only [found, Bool.and_eq_true] at steps
      obtain ⟨g₁, brought, first⟩ := exists_bringUp within below steps.1
      have others := steps.2
      simp only [brought, Bool.and_eq_true] at others
      have first := first others.1
      obtain ⟨g', done, step, column⟩ := exists_clearColumnBelow others.1 others.2
      refine ⟨g', ?_, (first.trans step).mono (by omega), .inl column⟩
      simp only [bind, Except.bind, brought]
      exact done

/-! ## The triangular form -/

/-- How far the triangular form is after some columns: all of them are cleared and the determinant
has moved by little, or there is next to no determinant and next to nothing at one place of the
diagonal. -/
def TriangularSoFar (t : Tolerance) (g g' : Grid n n) (done : Nat) : Prop :=
  (ClearedBefore done g'.rational ∧
      |g'.rational.det - g.rational.det| ≤ done * n * t.determinantError n) ∨
    (∃ j : Fin n, j.val < done ∧ |g'.rational j j| ≤ t.zero) ∧
      |g.rational.det| ≤ (done * n + 1) * t.determinantError n

/-- Steps through a column keep the columns before it cleared. -/
theorem ColumnStep.clearedBefore {steps : Nat} (h : ColumnStep t g g' k steps)
    (cleared : ClearedBefore k g.rational) : ClearedBefore k g'.rational := by
  intro a b left below
  by_cases low : k ≤ a
  · exact h.zeros b (fun a' low' => cleared a' b left (lt_of_lt_of_le left low')) a low
  · rw [rational, h.above a b (not_le.1 low)]
    exact cleared a b left below

/-- With one column more cleared, the columns up to the next one are. -/
theorem clearedBefore_succ {A : Matrix (Fin n) (Fin n) ℚ} (h : ClearedBefore k A)
    (column : ∀ a, k < a → A a k = 0) : ClearedBefore (k.val + 1) A := by
  intro a b left below
  rcases (Nat.lt_succ_iff.1 left).lt_or_eq with before | same
  · exact h a b before below
  · have own : b = k := Fin.ext same
    subst own
    exact column a below

/-- A step through the next column brings the triangular form one column further. -/
theorem TriangularSoFar.next {g'' : Grid n n} (h : TriangularSoFar t g g' k)
    (step : ColumnStep t g' g'' k n)
    (column : (∀ a, k < a → g''.rational a k = 0) ∨ ∀ a, k ≤ a → |g''.rational a k| ≤ t.zero) :
    TriangularSoFar t g g'' (k.val + 1) := by
  have nonneg := t.determinantError_nonneg n
  rcases h with ⟨cleared, moved⟩ | ⟨⟨j, before, small⟩, none⟩
  · have together := abs_add_le (g''.rational.det - g'.rational.det)
      (g'.rational.det - g.rational.det)
    rw [sub_add_sub_cancel] at together
    have moved' : |g''.rational.det - g.rational.det| ≤
        ((k.val + 1 : Nat) : ℚ) * n * t.determinantError n := by
      push_cast
      linarith [step.det]
    have cleared' := step.clearedBefore cleared
    rcases column with zero | tiny
    · exact .inl ⟨clearedBefore_succ cleared' zero, moved'⟩
    · refine .inr ⟨⟨k, Nat.lt_succ_self k.val, tiny k le_rfl⟩, ?_⟩
      have nothing := abs_det_le_of_clearedBefore cleared' t.one_le_size
        (fun a b => (isWithin_iff.1 step.within a b).2) t.zero_nonneg tiny
      have least : sensitivity n t.size * t.zero ≤ t.determinantError n :=
        mul_le_mul_of_nonneg_left t.zero_le_rowError (sensitivity_nonneg n t.size_nonneg)
      have apart := abs_sub_abs_le_abs_sub g.rational.det g''.rational.det
      rw [abs_sub_comm] at apart
      push_cast at moved' ⊢
      linarith
  · refine .inr ⟨⟨j, Nat.lt_succ_of_lt before, ?_⟩, none.trans ?_⟩
    · rw [rational, step.above j j before]
      exact small
    · have more : (0 : ℚ) ≤ n * t.determinantError n := mul_nonneg (Nat.cast_nonneg n) nonneg
      push_cast
      linarith

/-- The next column of those that are left is the one behind those that are done. -/
theorem eq_of_drop_finRange {done : Nat} {left : List (Fin n)}
    (h : k :: left = (List.finRange n).drop done) :
    k.val = done ∧ left = (List.finRange n).drop (done + 1) := by
  have inside : done < (List.finRange n).length := by
    by_contra beyond
    rw [List.drop_eq_nil_of_le (not_lt.1 beyond)] at h
    cases h
  rw [List.drop_eq_getElem_cons inside, List.cons.injEq] at h
  refine ⟨?_, h.2⟩
  rw [h.1, List.getElem_finRange]
  rfl

/-- What holds before the first column and is kept by going through a column holds of the triangular
form. -/
theorem exists_makeTriangular_of_steps {I : Grid n n → Nat → Prop}
    (within : g.isWithin t = true) (start : I g 0)
    (next : ∀ (k : Fin n) (g' g'' : Grid n n), I g' k → ColumnStep t g' g'' k n →
      ((∀ a, k < a → g''.rational a k = 0) ∨ ∀ a, k ≤ a → |g''.rational a k| ≤ t.zero) →
      I g'' (k.val + 1))
    (run : passes (triangularWithin t) triangularStep (List.finRange n) g = true) :
    ∃ g', g.makeTriangular = .ok g' ∧ g'.isWithin t = true ∧ I g' n := by
  let J : List (Fin n) → Grid n n → Prop := fun left g' =>
    g'.isWithin t = true ∧ ∃ done ≤ n, left = (List.finRange n).drop done ∧ I g' done
  have first : J (List.finRange n) g := ⟨within, 0, Nat.zero_le n, rfl, start⟩
  obtain ⟨g', made, within', done, le, empty, result⟩ := exists_of_passes (I := J)
    (fun k left g' part check => by
      obtain ⟨within', done, le, rest, soFar⟩ := part
      obtain ⟨same, rest'⟩ := eq_of_drop_finRange rest
      subst same
      obtain ⟨g'', stepped, step, column⟩ := exists_triangularStep within' check
      exact ⟨g'', stepped, step.within, k.val + 1, k.isLt, rest', next k g' g'' soFar step column⟩)
    first run
  have whole : done = n := by
    have short := List.drop_eq_nil_iff.1 empty.symm
    rw [List.length_finRange] at short
    omega
  exact ⟨g', made, within', whole ▸ result⟩

/-- Making a matrix triangular moves its determinant by little. -/
theorem exists_makeTriangular (within : g.isWithin t = true)
    (run : passes (triangularWithin t) triangularStep (List.finRange n) g = true) :
    ∃ g', g.makeTriangular = .ok g' ∧ g'.isWithin t = true ∧ TriangularSoFar t g g' n := by
  have start : TriangularSoFar t g g 0 := by
    refine .inl ⟨fun a b left => absurd left (Nat.not_lt_zero _), ?_⟩
    rw [sub_self, abs_zero, Nat.cast_zero, zero_mul, zero_mul]
  exact exists_makeTriangular_of_steps (I := TriangularSoFar t g) within start
    (fun _ _ _ soFar step column => soFar.next step column) run

/-! ## The product of the diagonal -/

/-- Whether an entry of the diagonal is multiplied in accurately. -/
def multipliesWithin (t : Tolerance) (g : Grid n n) (product : Value) (i : Fin n) : Bool :=
  t.accepts (product.rat * (g.entry i i).rat) (product.mul (g.entry i i))

/-- Whether multiplying the diagonal takes accurate products only. -/
def diagonalWithin (t : Tolerance) (g : Grid n n) : Bool :=
  passes (g.multipliesWithin t) (fun product i => product.mul (g.entry i i)) (List.finRange n)
    Value.one

/-- Each product passes on the error before it and adds its own. -/
theorem exists_product (within : g.isWithin t = true) {places : List (Fin n)} {p : Value}
    {exact error : ℚ} (nonneg : 0 ≤ error) (near : |p.rat - exact| ≤ error)
    (numeric : p.isNumeric = true)
    (run : passes (g.multipliesWithin t) (fun product i => product.mul (g.entry i i)) places p =
      true) :
    ∃ q, places.foldlM (fun product i => product.mul (g.entry i i)) p = .ok q ∧
      q.isNumeric = true ∧
      |q.rat - exact * (places.map fun i => g.rational i i).prod| ≤
        t.size ^ places.length * (error + places.length * t.error) := by
  induction places generalizing p exact error with
  | nil =>
    refine ⟨p, rfl, numeric, ?_⟩
    simpa using near
  | cons i places ih =>
    rw [passes, Bool.and_eq_true] at run
    obtain ⟨q, product, numeric', near'⟩ := Tolerance.exists_of_accepts run.1
    have later := run.2
    simp only [product] at later
    have entry := (isWithin_iff.1 within i i).2
    have passed : |(p.rat - exact) * g.rational i i| ≤ error * t.size := by
      rw [abs_mul]
      exact mul_le_mul near entry (abs_nonneg _) nonneg
    have close : |q.rat - exact * g.rational i i| ≤ error * t.size + t.error := by
      have together := abs_add_le (q.rat - p.rat * (g.entry i i).rat)
        ((p.rat - exact) * g.rational i i)
      have split : q.rat - p.rat * (g.entry i i).rat + (p.rat - exact) * g.rational i i =
          q.rat - exact * g.rational i i := by
        rw [rational]
        ring
      rw [split] at together
      linarith
    obtain ⟨q', rest, numeric'', near''⟩ := ih
      (add_nonneg (mul_nonneg nonneg t.size_nonneg) t.error_nonneg) close numeric' later
    refine ⟨q', ?_, numeric'', ?_⟩
    · rw [List.foldlM_cons, product]
      exact rest
    · rw [List.map_cons, List.prod_cons, ← mul_assoc, List.length_cons, pow_succ]
      refine near''.trans ?_
      have power : (0 : ℚ) ≤ t.size ^ places.length := pow_nonneg t.size_nonneg _
      have grown : error * t.size + t.error + places.length * t.error ≤
          t.size * (error + ((places.length + 1 : Nat) : ℚ) * t.error) := by
        have more : (0 : ℚ) ≤ (places.length + 1) * t.error :=
          mul_nonneg (by positivity) t.error_nonneg
        have least := mul_le_mul_of_nonneg_right t.one_le_size more
        push_cast
        linarith
      calc t.size ^ places.length * (error * t.size + t.error + places.length * t.error)
          ≤ t.size ^ places.length *
              (t.size * (error + ((places.length + 1 : Nat) : ℚ) * t.error)) :=
            mul_le_mul_of_nonneg_left grown power
        _ = _ := (mul_assoc _ _ _).symm

/-- One entry that is next to nothing makes the product of the diagonal next to nothing. -/
theorem abs_prod_diagonal_le (within : g.isWithin t = true) {j : Fin n}
    (small : |g.rational j j| ≤ t.zero) :
    |∏ i, g.rational i i| ≤ t.zero * t.size ^ n := by
  have others : |∏ i ∈ Finset.univ.erase j, g.rational i i| ≤ t.size ^ n := by
    rw [Finset.abs_prod]
    calc ∏ i ∈ Finset.univ.erase j, |g.rational i i|
        ≤ ∏ _i ∈ Finset.univ.erase j, t.size :=
          Finset.prod_le_prod (fun _ _ => abs_nonneg _) fun i _ => (isWithin_iff.1 within i i).2
      _ = t.size ^ (Finset.univ.erase j).card := Finset.prod_const _
      _ ≤ t.size ^ n := by
        refine pow_le_pow_right₀ t.one_le_size ?_
        have fewer := Finset.card_le_univ (Finset.univ.erase j)
        rwa [Fintype.card_fin] at fewer
  rw [← Finset.mul_prod_erase Finset.univ _ (Finset.mem_univ j), abs_mul]
  exact mul_le_mul small others (abs_nonneg _) t.zero_nonneg

/-! ## The determinant -/

/-- Whether the determinant is taken by the triangular form with accurate operations only. -/
def determinantWithin (t : Tolerance) (g : Grid n n) : Bool :=
  g.isWithin t && passes (triangularWithin t) triangularStep (List.finRange n) g &&
    match g.makeTriangular with
    | .error _ => false
    | .ok triangular => triangular.diagonalWithin t

/-- The determinant by the triangular form is close to that of the matrix before it is shown. -/
theorem exists_determinantTriangular (run : g.determinantWithin t = true) :
    ∃ d : Decimal, g.determinantTriangular = .ok ((Value.number d).rounded 6) ∧
      |d.toRat - g.rational.det| ≤ (n + 1) ^ 2 * t.determinantError n := by
  rw [determinantWithin, Bool.and_eq_true, Bool.and_eq_true] at run
  obtain ⟨⟨within, steps⟩, products⟩ := run
  obtain ⟨g', made, within', soFar⟩ := exists_makeTriangular within steps
  simp only [made] at products
  have one : |Value.one.rat - 1| ≤ 0 := by
    rw [show Value.one.rat = 1 by decide, sub_self, abs_zero]
  obtain ⟨v, multiplied, numeric, near⟩ :=
    exists_product within' le_rfl one rfl products
  obtain ⟨d, rfl, _⟩ := Value.standsFor_rat numeric
  have near : |d.toRat - ∏ i, g'.rational i i| ≤ n * t.determinantError n := by
    rw [one_mul, ← Fin.prod_univ_def, List.length_finRange, zero_add] at near
    refine near.trans ?_
    have grown : t.size ^ n * t.error ≤ t.determinantError n :=
      mul_le_mul (pow_le_sensitivity n t.size_nonneg) t.error_le_rowError t.error_nonneg
        (sensitivity_nonneg n t.size_nonneg)
    calc t.size ^ n * (n * t.error) = n * (t.size ^ n * t.error) := by ring
      _ ≤ n * t.determinantError n := mul_le_mul_of_nonneg_left grown (Nat.cast_nonneg n)
  refine ⟨d, ?_, ?_⟩
  · rw [determinantTriangular, made]
    simp only [bind, Except.bind, diagonalProduct, multiplied]
    rfl
  · have nonneg := t.determinantError_nonneg n
    have least : (0 : ℚ) ≤ n * t.determinantError n := mul_nonneg (Nat.cast_nonneg n) nonneg
    rcases soFar with ⟨cleared, moved⟩ | ⟨⟨j, _, small⟩, none⟩
    · rw [det_of_clearedBefore cleared] at moved
      have together := abs_add_le (d.toRat - ∏ i, g'.rational i i)
        (∏ i, g'.rational i i - g.rational.det)
      rw [sub_add_sub_cancel] at together
      linarith
    · have nothing := abs_prod_diagonal_le within' small
      have grown : t.zero * t.size ^ n ≤ t.determinantError n := by
        rw [mul_comm]
        exact mul_le_mul (pow_le_sensitivity n t.size_nonneg) t.zero_le_rowError t.zero_nonneg
          (sensitivity_nonneg n t.size_nonneg)
      have positive : (1 : ℚ) ≤ n := by exact_mod_cast j.pos
      have together := abs_add_le (d.toRat - ∏ i, g'.rational i i) (∏ i, g'.rational i i)
      rw [sub_add_cancel] at together
      have apart := abs_sub d.toRat g.rational.det
      nlinarith

end Grid

end Reckon
