import Reckon.Proofs.Matrix.Combination
import Reckon.Proofs.Matrix.Tolerance

/-!
# Reduction beside a second matrix

What Gauss-Jordan elimination does to a square matrix that stands beside another one, within a
tolerance. As long as the determinant is not next to zero there is a pivot in every column, and
with each pivot the columns stay combinations of the same vectors, off by little.
-/

namespace Reckon

open Reckon.Perturbation Reckon.Echelon

/-- How far a column may drift with one pivot, for each row. -/
def Tolerance.stepError (t : Tolerance) : ℚ :=
  (t.size + 1) * ((t.size + 2) * t.error + t.size * t.zero)

/-- The error of one step is not negative. -/
theorem Tolerance.stepError_nonneg (t : Tolerance) : 0 ≤ t.stepError := by
  have size := t.size_nonneg
  exact mul_nonneg (by linarith) (add_nonneg (mul_nonneg (by linarith) t.error_nonneg)
    (mul_nonneg size t.zero_nonneg))

/-- How far the columns may drift with all pivots. -/
def Tolerance.drift (t : Tolerance) (n : Nat) : ℚ :=
  n * (n * t.stepError)

namespace Grid

section

variable {rows cols : Nat} {g g' g₁ : Grid rows cols} {t : Tolerance} {i pivot : Fin rows}
  {j : Fin cols}

/-! ## Bringing up a pivot -/

/-- Whether bringing up a pivot takes accurate operations only. All entries from the row on are
tested. -/
def pivotsWithin (t : Tolerance) (g : Grid rows cols) (i : Fin rows) (j : Fin cols) : Bool :=
  ((List.finRange rows).all fun a => decide (a < i) || t.separates (g.entry a j)) &&
    match g.findPivot? j i with
    | none => true
    | some pivot =>
      let swapped := g.swapRows i pivot
      t.accepts (swapped.entry i j).rat⁻¹ (Value.one.div (swapped.entry i j)) &&
        match Value.one.div (swapped.entry i j) with
        | .error _ => false
        | .ok reciprocal => swapped.scalesWithin t i reciprocal

/-- What bringing up a pivot leaves: one in its place, and a row that is off by little from a
multiple of what it was. -/
structure PivotBrought (t : Tolerance) (g g₁ : Grid rows cols) (i : Fin rows) (j : Fin cols) :
    Prop where
  others : ∀ a b, a ≠ i → g₁.entry a b = g.entry a b
  one : g₁.entry i j = .one
  row : ∀ b, b ≠ j →
    |g₁.rational i b * g.rational i j - g.rational i b| ≤ t.size * (t.size + 1) * t.error

/-- A quotient that is formed with the reciprocal gives the dividend back, nearly. -/
theorem abs_mul_sub_le {p a r z : ℚ} (pivot : p ≠ 0) (sizeP : |p| ≤ t.size) (sizeA : |a| ≤ t.size)
    (reciprocal : |r - p⁻¹| ≤ t.error) (product : |z - r * a| ≤ t.error) :
    |z * p - a| ≤ t.size * (t.size + 1) * t.error := by
  have split : z * p - a = (z - r * a) * p + a * ((r - p⁻¹) * p) := by
    rw [sub_mul r, inv_mul_cancel₀ pivot]
    ring
  have first : |(z - r * a) * p| ≤ t.error * t.size := by
    rw [abs_mul]
    exact mul_le_mul product sizeP (abs_nonneg _) t.error_nonneg
  have second : |a * ((r - p⁻¹) * p)| ≤ t.size * (t.error * t.size) := by
    rw [abs_mul, abs_mul]
    exact mul_le_mul sizeA (mul_le_mul reciprocal sizeP (abs_nonneg _) t.error_nonneg)
      (mul_nonneg (abs_nonneg _) (abs_nonneg _)) t.size_nonneg
  rw [split]
  refine (abs_add_le _ _).trans ((add_le_add first second).trans (le_of_eq ?_))
  ring

/-- A pivot that was found is brought up within the tolerance. -/
theorem exists_normalizePivot (within : g.isWithin t = true)
    (found : g.findPivot? j i = some pivot) (run : g.pivotsWithin t i j = true) :
    ∃ g₁, g.normalizePivot i j = .ok (some g₁) ∧
      PivotBrought t (g.swapRows i pivot) g₁ i j := by
  have swapped := isWithin_iff.1 (isWithin_swapRows within i pivot)
  rw [pivotsWithin, found, Bool.and_eq_true] at run
  have steps := run.2
  simp only [Bool.and_eq_true] at steps
  obtain ⟨reciprocal, divided, _, near⟩ := Tolerance.exists_of_accepts steps.1
  have scales := steps.2
  simp only [divided] at scales
  obtain ⟨g₁, scaled, becomes, _⟩ := exists_scaleRow_of_within scales
  have nonzero := Value.rat_ne_zero_of_div (swapped i j).1 divided
  refine ⟨g₁.set i j .one, ?_, fun a b other => ?_, ?_, fun b other => ?_⟩
  · rw [normalizePivot, found]
    simp only [divided, scaled, bind, Except.bind]
  · rw [entry_set_of_ne b .one other, becomes.others a b other]
  · rw [entry_set, if_pos ⟨rfl, rfl⟩]
  · rw [rational_set, if_neg fun here => other here.2.symm]
    exact abs_mul_sub_le nonzero (swapped i j).2 (swapped i b).2 near (becomes.near b)

/-! ## Clearing the column of a pivot -/

/-- Whether clearing an entry takes accurate operations only. -/
def clearsWithin (t : Tolerance) (pivot : Fin rows) (j : Fin cols) (g : Grid rows cols)
    (i : Fin rows) : Bool :=
  decide (i = pivot) || t.separates (g.entry i j) &&
    ((g.entry i j).isZero || g.addsWithin t i pivot (g.entry i j).negate)

/-- How far the row of an entry that was cleared is from what it was less the row of the pivot. -/
def Clears (t : Tolerance) (g g' : Grid rows cols) (pivot : Fin rows) (j : Fin cols)
    (i : Fin rows) : Prop :=
  ∀ b, b ≠ j →
    |g'.rational i b - (g.rational i b - g.rational i j * g.rational pivot b)| ≤
      2 * t.error + t.zero * |g.rational pivot b|

/-- An entry is cleared within the tolerance, and nothing else changes. -/
theorem exists_clearEntry (numeric : (g.entry i j).isNumeric = true)
    (run : clearsWithin t pivot j g i = true) :
    ∃ g', clearEntry pivot j g i = .ok g' ∧
      (∀ a b, a ≠ i ∨ a = pivot → g'.entry a b = g.entry a b) ∧
      (i ≠ pivot → Clears t g g' pivot j i) := by
  rw [clearsWithin, Bool.or_eq_true, decide_eq_true_eq, Bool.and_eq_true, Bool.or_eq_true] at run
  rw [clearEntry]
  by_cases own : i = pivot
  · refine ⟨g, by rw [decide_eq_true own, Bool.true_or, if_pos rfl], fun _ _ _ => rfl,
      fun other => absurd own other⟩
  · obtain ⟨tested, steps⟩ := run.resolve_left own
    rw [decide_eq_false own, Bool.false_or]
    cases zero : (g.entry i j).isZero with
    | true =>
      have small : |g.rational i j| ≤ t.zero :=
        Tolerance.abs_rat_le_of_isZero numeric tested zero
      refine ⟨g, by rw [if_pos rfl], fun _ _ _ => rfl, fun _ b _ => ?_⟩
      have product := mul_le_mul_of_nonneg_right small (abs_nonneg (g.rational pivot b))
      rw [sub_sub_cancel, abs_mul]
      linarith [t.error_nonneg]
    | false =>
      rw [zero] at steps
      obtain ⟨g₁, added, becomes, _⟩ :=
        exists_addScaledRow_of_within (steps.resolve_left Bool.false_ne_true)
      refine ⟨g₁.set i j .zero, ?_, fun a b kept => ?_, fun _ b other => ?_⟩
      · rw [if_neg Bool.false_ne_true, added]
        rfl
      · have apart : a ≠ i := kept.elim id fun same => same ▸ Ne.symm own
        rw [entry_set_of_ne b .zero apart, becomes.others a b apart]
      · have near := becomes.near b
        rw [Value.rat_negate numeric, Pi.add_apply, Pi.smul_apply, smul_eq_mul, neg_mul,
          ← sub_eq_add_neg] at near
        rw [rational_set, if_neg fun here => other here.2.symm]
        exact near.trans (by linarith [mul_nonneg t.zero_nonneg (abs_nonneg (g.rational pivot b))])

/-- The rows that are cleared so far, those that are left being cleared later. -/
structure ClearedPart (t : Tolerance) (g : Grid rows cols) (pivot : Fin rows) (j : Fin cols)
    (left : List (Fin rows)) (g' : Grid rows cols) : Prop where
  nodup : left.Nodup
  kept : ∀ a b, a = pivot ∨ a ∈ left → g'.entry a b = g.entry a b
  cleared : ∀ a, a ≠ pivot → a ∉ left → Clears t g g' pivot j a

/-- One row more is cleared, and one less is left. -/
theorem ClearedPart.clear {left : List (Fin rows)} {g'' : Grid rows cols}
    (h : ClearedPart t g pivot j (i :: left) g')
    (others : ∀ a b, a ≠ i ∨ a = pivot → g''.entry a b = g'.entry a b)
    (own : i ≠ pivot → Clears t g' g'' pivot j i) : ClearedPart t g pivot j left g'' := by
  obtain ⟨first, nodup⟩ := List.nodup_cons.1 h.nodup
  refine ⟨nodup, fun a b kept => ?_, fun a apart outside => ?_⟩
  · have untouched : a ≠ i ∨ a = pivot :=
      kept.symm.imp_left fun mem same => first (same ▸ mem)
    rw [others a b untouched, h.kept a b (kept.imp_right (List.mem_cons_of_mem i))]
  · intro b other
    by_cases here : a = i
    · have cleared := own (here ▸ apart) b other
      have same : ∀ c, g'.rational i c = g.rational i c :=
        fun c => congrArg Value.rat (h.kept i c (.inr List.mem_cons_self))
      have row : g'.rational pivot b = g.rational pivot b :=
        congrArg Value.rat (h.kept pivot b (.inl rfl))
      rw [same, same, row] at cleared
      rw [here]
      exact cleared
    · have cleared := h.cleared a apart
        (fun mem => (List.mem_cons.1 mem).elim here outside) b other
      rw [rational, others a b (.inl here)]
      exact cleared

/-- Clearing the column of a pivot. -/
theorem exists_clearTargets (numeric : ∀ a, (g.entry a j).isNumeric = true)
    (run : passes (clearsWithin t pivot j) (clearEntry pivot j) (targets false pivot) g = true) :
    ∃ g', (targets false pivot).foldlM (clearEntry pivot j) g = .ok g' ∧
      ClearedPart t g pivot j [] g' := by
  refine exists_of_passes (fun i left g₁ part check => ?_) ?_ run
  · have number : (g₁.entry i j).isNumeric = true := by
      rw [part.kept i j (.inr List.mem_cons_self)]
      exact numeric i
    obtain ⟨g₂, done, others, own⟩ := exists_clearEntry number check
    exact ⟨g₂, done, part.clear others own⟩
  · refine ⟨(List.nodup_finRange rows).filter _, fun _ _ _ => rfl, fun a _ outside => ?_⟩
    exact absurd (mem_targets.2 fun below => absurd below Bool.false_ne_true) outside

/-! ## All columns -/

/-- Whether a reduction takes accurate operations only and keeps entries small. -/
def reducesWithin (t : Tolerance) : List (Fin cols) → (lead : Nat) → Grid rows cols → Bool
  | [], _, g => g.isWithin t
  | j :: columns, lead, g =>
    g.isWithin t &&
      if h : lead < rows then
        g.pivotsWithin t ⟨lead, h⟩ j &&
          match g.normalizePivot ⟨lead, h⟩ j with
          | .error _ => false
          | .ok none => reducesWithin t columns lead g
          | .ok (some g) =>
            passes (clearsWithin t ⟨lead, h⟩ j) (clearEntry ⟨lead, h⟩ j) (targets false ⟨lead, h⟩)
                g &&
              match (targets false ⟨lead, h⟩).foldlM (clearEntry ⟨lead, h⟩ j) g with
              | .error _ => false
              | .ok g => reducesWithin t columns (lead + 1) g
      else true

/-- A grid that is reduced within a tolerance is within it at the start. -/
theorem isWithin_of_reducesWithin {columns : List (Fin cols)} {lead : Nat}
    (run : reducesWithin t columns lead g = true) : g.isWithin t = true := by
  cases columns with
  | nil => exact run
  | cons j columns =>
    rw [reducesWithin, Bool.and_eq_true] at run
    exact run.1

end

variable {n : Nat} {g g' g₁ : Grid n (n + n)} {t : Tolerance} {k pivot : Fin n}
  {A₀ : Matrix (Fin n) (Fin (n + n)) ℚ} {P : Fin n → Fin n → ℚ} {drift : ℚ}

/-- The columns stay combinations when a pivot is brought up and its column is cleared. -/
theorem exists_combines (combines : Combines A₀ g.rational k P drift) (little : drift ≤ 1)
    (entries : ∀ a c, |A₀ a c| ≤ t.size) (below : k ≤ pivot)
    (brought : PivotBrought t (g.swapRows k pivot) g₁ k (Fin.castAdd n k))
    (cleared : ClearedPart t g₁ k (Fin.castAdd n k) [] g') (within : g'.isWithin t = true) :
    ∃ P', Combines A₀ g'.rational (k + 1) P' (drift + n * t.stepError) := by
  have size := t.size_nonneg
  have error := t.error_nonneg
  have exchange := combines.exchange le_rfl below
  rw [show (fun a => g.rational (Equiv.swap k pivot a)) = (g.swapRows k pivot).rational from
    (rational_swapRows g k pivot).symm] at exchange
  have own : ∀ c, g'.rational k c = g₁.rational k c :=
    fun c => congrArg Value.rat (cleared.kept k c (.inl rfl))
  refine ⟨_, exchange.pivot (fun c less i a => ?_) t.stepError_nonneg⟩
  have apart : c ≠ Fin.castAdd n k := fun same => Nat.ne_of_gt less (congrArg Fin.val same)
  rw [abs_mul, defect]
  by_cases here : i = k
  · have row := brought.row c apart
    have vector := exchange.fresh k le_rfl a
    rw [if_pos here, own, here]
    calc _ ≤ t.size * (t.size + 1) * t.error * 1 :=
          mul_le_mul row vector (abs_nonneg _) (by positivity)
      _ ≤ t.stepError := by
        rw [Tolerance.stepError]
        nlinarith [mul_nonneg size t.zero_nonneg, mul_nonneg size error]
  · have row := cleared.cleared i here List.not_mem_nil c apart
    have same : ∀ b, g₁.rational i b = (g.swapRows k pivot).rational i b :=
      fun b => congrArg Value.rat (brought.others i b here)
    rw [same, same, ← own] at row
    have vector := exchange.abs_vector_le t.one_le_size entries i a little
    have bounded : 2 * t.error + t.zero * |g'.rational k c| ≤
        2 * t.error + t.zero * t.size :=
      add_le_add le_rfl (mul_le_mul_of_nonneg_left (isWithin_iff.1 within k c).2 t.zero_nonneg)
    rw [if_neg here]
    calc _ ≤ (2 * t.error + t.zero * t.size) * (t.size + 1) :=
          mul_le_mul (row.trans bounded) vector (abs_nonneg _)
            (add_nonneg (by linarith) (mul_nonneg t.zero_nonneg size))
      _ ≤ t.stepError := by
        rw [Tolerance.stepError]
        nlinarith [mul_nonneg size error]

/-- A bound on the drift may be raised. -/
theorem Combines.mono {drift' : ℚ} (h : Combines A₀ g.rational k P drift) (le : drift ≤ drift') :
    Combines A₀ g.rational k P drift' :=
  ⟨fun i less a => (h.taken i less a).trans le, h.fresh, fun c low a => (h.columns c low a).trans le⟩

/-- The columns from one on are that column and those behind it. -/
theorem drop_finRange (k : Fin n) :
    (List.finRange (n + n)).drop k =
      Fin.castAdd n k :: (List.finRange (n + n)).drop (k + 1) := by
  rw [List.drop_eq_getElem_cons (by rw [List.length_finRange]; omega)]
  congr 1
  rw [List.getElem_finRange]
  rfl

/-- If the determinant is not next to zero, reduction finds a pivot in every one of the first
columns. -/
theorem exists_reduceColumns (entries : ∀ a c, |A₀ a c| ≤ t.size) (little : t.drift n ≤ 1)
    (regular : pivotlessBound n t.size (t.drift n) t.zero < |(leftHalf A₀).det|) {k : Nat}
    (le : k ≤ n) (combines : Combines A₀ g.rational k P (k * (n * t.stepError)))
    (run : reducesWithin t ((List.finRange (n + n)).drop k) k g = true) :
    ∃ g' P', reduceColumns false ((List.finRange (n + n)).drop k) k g = .ok g' ∧
      g'.isWithin t = true ∧ Combines A₀ g'.rational n P' (t.drift n) := by
  have within := isWithin_of_reducesWithin run
  have step : 0 ≤ n * t.stepError := mul_nonneg (Nat.cast_nonneg n) t.stepError_nonneg
  have drifted : k * (n * t.stepError) ≤ t.drift n :=
    mul_le_mul_of_nonneg_right (by exact_mod_cast le) step
  induction left : n - k generalizing k g P with
  | zero =>
    obtain rfl : k = n := by omega
    refine ⟨g, P, ?_, within, combines⟩
    cases (List.finRange (k + k)).drop k with
    | nil => rfl
    | cons j columns => rw [reduceColumns, dif_neg (lt_irrefl k)]
  | succ fewer ih =>
    have room : k < n := by omega
    rw [drop_finRange ⟨k, room⟩, reducesWithin, dif_pos room, Bool.and_eq_true,
      Bool.and_eq_true] at run
    rw [drop_finRange ⟨k, room⟩, reduceColumns, dif_pos room]
    obtain ⟨_, pivots, later⟩ := run
    cases found : g.findPivot? (Fin.castAdd n ⟨k, room⟩) k with
    | none =>
      -- Next to nothing is left of the column, so that there would be next to no determinant.
      have column : ∀ a : Fin n, (⟨k, room⟩ : Fin n) ≤ a →
          |g.rational a (Fin.castAdd n ⟨k, room⟩)| ≤ t.zero := by
        intro a low
        rw [pivotsWithin, Bool.and_eq_true, List.all_eq_true] at pivots
        have tested := pivots.1 a (List.mem_finRange a)
        rw [Bool.or_eq_true, decide_eq_true_eq] at tested
        exact Tolerance.abs_rat_le_of_isZero (isWithin_iff.1 within a _).1
          (tested.resolve_left (not_lt.2 low)) (isZero_of_findPivot?_eq_none found low)
      have small := (Combines.mono combines drifted).abs_det_le (k := ⟨k, room⟩) t.one_le_size entries
        (fun a c => (isWithin_iff.1 within a c).2) column
      exact absurd small (not_le.2 regular)
    | some pivot =>
      obtain ⟨g₁, normal, brought⟩ := exists_normalizePivot within found pivots
      simp only [normal, Bool.and_eq_true] at later ⊢
      have swapped := isWithin_iff.1 (isWithin_swapRows within ⟨k, room⟩ pivot)
      have numeric : ∀ a, (g₁.entry a (Fin.castAdd n ⟨k, room⟩)).isNumeric = true := by
        intro a
        by_cases own : a = ⟨k, room⟩
        · rw [own, brought.one]
          rfl
        · rw [brought.others a _ own]
          exact (swapped a _).1
      obtain ⟨g₂, cleared, part⟩ := exists_clearTargets numeric later.1
      have others := later.2
      simp only [cleared] at others ⊢
      have within' := isWithin_of_reducesWithin others
      obtain ⟨P', combines'⟩ := exists_combines combines (drifted.trans little) entries
        (of_findPivot?_eq_some found).1 brought part within'
      have count : (k * (n * t.stepError) + n * t.stepError : ℚ) =
          (k + 1 : Nat) * (n * t.stepError) := by
        push_cast
        ring
      rw [count] at combines'
      exact ih room combines' others within'
        (mul_le_mul_of_nonneg_right (by exact_mod_cast room) step) (by omega)

end Grid

end Reckon
