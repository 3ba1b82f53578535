import Reckon.Proofs.Decimal.Exact
import Reckon.Proofs.Matrix.Perturbation
import Reckon.Proofs.Matrix.RowReduction

/-!
# Runs within a tolerance

Decimal elimination rounds, and it takes small entries for zero. How far this leads is a matter of
three numbers: how far an operation may be off, how large an entry may be that is taken for zero,
and how large entries may grow. A run within such a tolerance is described here operation by
operation. With no error and nothing but zero taken for zero, it is a run of exact arithmetic.
-/

namespace Reckon

open Reckon.Echelon

/-- How accurate a run is. -/
structure Tolerance where
  /-- How far the result of an operation may be off. -/
  error : ℚ
  /-- How large an entry may be that is taken for zero. -/
  zero : ℚ
  /-- How large an entry may be. -/
  size : ℚ
  error_nonneg : 0 ≤ error
  zero_nonneg : 0 ≤ zero
  one_le_size : 1 ≤ size

namespace Tolerance

/-- Twenty-six right places, for entries up to ten. -/
def fine : Tolerance :=
  ⟨1 / 10 ^ 26, 1 / 10 ^ 26, 10, by norm_num, by norm_num, by norm_num⟩

/-! ## Single operations -/

/-- Whether the result of an operation is a number and close enough to the exact one. -/
def accepts (t : Tolerance) (exact : ℚ) : Except Fault Value → Bool
  | .ok (.number d) => decide (|d.toRat - exact| ≤ t.error)
  | .ok (.symbolic _) => false
  | .error _ => false

/-- Whether a value that is tested for zero is next to zero or well away from it. -/
def separates (t : Tolerance) (v : Value) : Bool :=
  decide (|v.rat| ≤ t.zero) || decide (1 / 10 ^ 7 < |v.rat|)

/-- Whether a value is a number that is not too large. -/
def admits (t : Tolerance) (v : Value) : Bool :=
  v.isNumeric && decide (|v.rat| ≤ t.size)

/-- How far a row may be off that an entry is cleared in. -/
def rowError (t : Tolerance) : ℚ :=
  t.size * (t.size + 1) * t.error + t.zero

variable {t : Tolerance} {v : Value} {q : ℚ}

/-- The bound on entries is not negative. -/
theorem size_nonneg (t : Tolerance) : 0 ≤ t.size :=
  zero_le_one.trans t.one_le_size

/-- An accepted result is a number close to the exact one. -/
theorem exists_of_accepts {result : Except Fault Value} (h : t.accepts q result = true) :
    ∃ v, result = .ok v ∧ v.isNumeric = true ∧ |v.rat - q| ≤ t.error := by
  unfold accepts at h
  split at h
  · next d => exact ⟨.number d, rfl, rfl, of_decide_eq_true h⟩
  · cases h
  · cases h

/-- A number is tested to be zero exactly when it is at most one part in ten million. -/
theorem isZero_iff (numeric : v.isNumeric = true) : v.isZero = true ↔ |v.rat| ≤ 1 / 10 ^ 7 := by
  cases v with
  | number d => exact Value.isNegligible_iff d
  | symbolic text => cases numeric

/-- A number that passes for zero and is not close to the threshold is next to zero. -/
theorem abs_rat_le_of_isZero (numeric : v.isNumeric = true) (tested : t.separates v = true)
    (zero : v.isZero = true) : |v.rat| ≤ t.zero := by
  rw [separates, Bool.or_eq_true, decide_eq_true_eq, decide_eq_true_eq] at tested
  exact tested.resolve_right (not_lt.2 ((isZero_iff numeric).1 zero))

/-- Two single errors are within the error of a row. -/
theorem two_error_le (t : Tolerance) : 2 * t.error ≤ t.rowError := by
  have h : 2 ≤ t.size * (t.size + 1) := by nlinarith [t.one_le_size]
  have grown := mul_le_mul_of_nonneg_right h t.error_nonneg
  rw [rowError]
  linarith [t.zero_nonneg]

/-- A single error is within the error of a row. -/
theorem error_le_rowError (t : Tolerance) : t.error ≤ t.rowError := by
  linarith [t.two_error_le, t.error_nonneg]

/-- What passes for zero is within the error of a row. -/
theorem zero_le_rowError (t : Tolerance) : t.zero ≤ t.rowError := by
  have grown := mul_nonneg (mul_nonneg t.size_nonneg (by linarith [t.one_le_size] : 0 ≤ t.size + 1))
    t.error_nonneg
  rw [rowError]
  linarith

/-- The error of a row is not negative. -/
theorem rowError_nonneg (t : Tolerance) : 0 ≤ t.rowError :=
  t.error_nonneg.trans t.error_le_rowError

end Tolerance

/-! ## Zeros stay zeros -/

namespace Value

/-- Zero times anything is zero, whatever an operation may be off. -/
theorem rat_mul_eq_zero {v w u : Value} (numeric : v.isNumeric = true) (zero : v.rat = 0)
    (result : v.mul w = .ok u) : u.rat = 0 := by
  cases v with
  | symbolic text => cases numeric
  | number a =>
    cases w with
    | symbolic text =>
      cases result
      rfl
    | number b =>
      have product : a.mul? b = some .zero := by
        rw [Decimal.mul?, Decimal.isZero_of_toRat_eq_zero zero, Bool.true_or, Bool.true_or, if_pos rfl]
      rw [mul, combine, Operator.apply, product] at result
      cases result
      exact Decimal.toRat_of_isZero rfl

/-- The sum of two zeros is zero, whatever the rounding. -/
theorem rat_add_eq_zero {v w u : Value} (numeric : v.isNumeric = true) (zero : v.rat = 0)
    (zero' : w.rat = 0) (result : v.add w = .ok u) : u.rat = 0 := by
  cases v with
  | symbolic text => cases numeric
  | number a =>
    cases w with
    | symbolic text =>
      cases result
      rfl
    | number b =>
      have sum : a.add? b = some b := by
        rw [Decimal.add?, Decimal.isZero_of_toRat_eq_zero zero, if_pos rfl]
      rw [add, combine, Operator.apply, sum] at result
      cases result
      exact zero'

/-- Adding zero to what stands for a number is exact. -/
theorem StandsFor.add_of_zero {v w u : Value} {p q : ℚ} (hv : v.StandsFor p) (hw : w.StandsFor q)
    (zero : p = 0 ∨ q = 0) (result : v.add w = .ok u) : u.StandsFor (p + q) := by
  obtain ⟨a, rfl, rfl⟩ := hv
  obtain ⟨b, rfl, rfl⟩ := hw
  obtain ⟨d, applied, rfl⟩ := combine_numbers_eq_ok.1 result
  exact ⟨d, rfl, Decimal.addsExactly_of_zero zero d (Decimal.orProblem_eq_ok.1 applied)⟩

/-- Subtracting with a zero on either side is exact. -/
theorem StandsFor.sub_of_zero {v w u : Value} {p q : ℚ} (hv : v.StandsFor p) (hw : w.StandsFor q)
    (zero : p = 0 ∨ q = 0) (result : v.sub w = .ok u) : u.StandsFor (p - q) := by
  obtain ⟨a, rfl, rfl⟩ := hv
  obtain ⟨b, rfl, rfl⟩ := hw
  obtain ⟨d, applied, rfl⟩ := combine_numbers_eq_ok.1 result
  exact ⟨d, rfl, Decimal.subtractsExactly_of_zero zero d (Decimal.orProblem_eq_ok.1 applied)⟩

/-- The negated number stands for the negated rational. -/
theorem rat_negate {v : Value} (numeric : v.isNumeric = true) : v.negate.rat = -v.rat :=
  (standsFor_rat numeric).negate.rat_eq

/-- There is no quotient by zero. -/
theorem rat_ne_zero_of_div {v w : Value} (numeric : v.isNumeric = true)
    (quotient : Value.one.div v = .ok w) : v.rat ≠ 0 := by
  intro zero
  cases v with
  | symbolic text => cases numeric
  | number d =>
    have isZero : d.isZero = true := Decimal.isZero_of_toRat_eq_zero zero
    rw [one, div, combine, Operator.apply, if_pos isZero] at quotient
    cases quotient

end Value

/-! ## Runs of steps -/

section

variable {α β : Type} {check : β → α → Bool} {step : β → α → Except Fault β}

/-- Whether every step of a run passes a check. -/
def passes (check : β → α → Bool) (step : β → α → Except Fault β) : List α → β → Bool
  | [], _ => true
  | a :: as, b =>
    check b a &&
      match step b a with
      | .error _ => false
      | .ok b => passes check step as b

/-- What every step that passes preserves, the steps that are left included, holds at the end. -/
theorem exists_of_passes {I : List α → β → Prop}
    (preserved : ∀ a as b, I (a :: as) b → check b a = true → ∃ b', step b a = .ok b' ∧ I as b')
    {as : List α} {b : β} (start : I as b) (run : passes check step as b = true) :
    ∃ b', as.foldlM step b = .ok b' ∧ I [] b' := by
  induction as generalizing b with
  | nil => exact ⟨b, rfl, start⟩
  | cons a as ih =>
    rw [passes, Bool.and_eq_true] at run
    obtain ⟨b', done, next⟩ := preserved a as b start run.1
    have later := run.2
    simp only [done] at later
    obtain ⟨b'', rest, last⟩ := ih next later
    refine ⟨b'', ?_, last⟩
    rw [List.foldlM_cons, done]
    exact rest

end

/-! ## Entries and pivots -/

namespace Grid

variable {rows cols : Nat} {g : Grid rows cols} {t : Tolerance}

/-- Setting an entry sets the rational that stands there. -/
theorem rational_set (g : Grid rows cols) (i a : Fin rows) (j b : Fin cols) (v : Value) :
    (g.set i j v).rational a b = if i = a ∧ j = b then v.rat else g.rational a b := by
  rw [rational, entry_set]
  split <;> rfl

/-- Setting an entry leaves the other rows as they are. -/
theorem entry_set_of_ne {i a : Fin rows} {j : Fin cols} (b : Fin cols) (v : Value)
    (other : a ≠ i) : (g.set i j v).entry a b = g.entry a b := by
  rw [entry_set, if_neg fun here => other here.1.symm]

/-- Swapped rows stand for swapped rows of rationals. -/
theorem rational_swapRows (g : Grid rows cols) (a b : Fin rows) :
    (g.swapRows a b).rational = exchanged g.rational a b := by
  funext i j
  rw [rational, entry_swapRows, exchanged, Equiv.swap_apply_def, rational]
  split
  · rfl
  · split <;> rfl

/-- A pivot that was found is not above the start and not tested to be zero. -/
theorem of_findPivot?_eq_some {j : Fin cols} {start : Nat} {pivot : Fin rows}
    (found : g.findPivot? j start = some pivot) :
    start ≤ pivot.val ∧ (g.entry pivot j).isZero = false := by
  have h := List.find?_some found
  rw [Bool.and_eq_true, decide_eq_true_eq, Bool.not_eq_true'] at h
  exact h

/-- Where no pivot was found, all entries from the start on are tested to be zero. -/
theorem isZero_of_findPivot?_eq_none {j : Fin cols} {start : Nat}
    (missing : g.findPivot? j start = none) {a : Fin rows} (le : start ≤ a.val) :
    (g.entry a j).isZero = true := by
  have h := List.find?_eq_none.1 missing a (List.mem_finRange a)
  rw [decide_eq_true le, Bool.true_and, Bool.not_eq_true', Bool.not_eq_false] at h
  exact h

/-- Whether all entries are numbers that are not too large. -/
def isWithin (g : Grid rows cols) (t : Tolerance) : Bool :=
  (List.finRange rows).all fun a => (List.finRange cols).all fun b => t.admits (g.entry a b)

/-- A grid is within a tolerance exactly when its entries are numbers of bounded size. -/
theorem isWithin_iff : g.isWithin t = true ↔
    ∀ a b, (g.entry a b).isNumeric = true ∧ |g.rational a b| ≤ t.size := by
  simp only [isWithin, List.all_eq_true, List.mem_finRange, true_implies, Tolerance.admits,
    Bool.and_eq_true, decide_eq_true_eq]
  rfl

/-- The entries of a grid within a tolerance are numbers. -/
theorem isNumeric_of_isWithin (within : g.isWithin t = true) : g.isNumeric = true :=
  isNumeric_iff.2 fun a b => (isWithin_iff.1 within a b).1

/-- Swapping rows keeps a grid within its tolerance. -/
theorem isWithin_swapRows (within : g.isWithin t = true) (i j : Fin rows) :
    (g.swapRows i j).isWithin t = true := by
  refine isWithin_iff.2 fun a b => ?_
  rw [rational, entry_swapRows]
  split
  · exact isWithin_iff.1 within j b
  · split
    · exact isWithin_iff.1 within i b
    · exact isWithin_iff.1 within a b

/-! ## Row operations -/

/-- Whether scaling a row takes accurate products only. -/
def scalesWithin (t : Tolerance) (g : Grid rows cols) (i : Fin rows) (factor : Value) : Bool :=
  (List.finRange cols).all fun b =>
    t.accepts ((g.entry i b).rat * factor.rat) ((g.entry i b).mul factor)

/-- Whether adding a multiple of a row takes accurate products and sums only. -/
def addsWithin (t : Tolerance) (g : Grid rows cols) (target source : Fin rows) (factor : Value) :
    Bool :=
  (List.finRange cols).all fun b =>
    t.accepts ((g.entry source b).rat * factor.rat) ((g.entry source b).mul factor) &&
      match (g.entry source b).mul factor with
      | .error _ => false
      | .ok scaled => t.accepts ((g.entry target b).rat + scaled.rat) ((g.entry target b).add scaled)

/-- The second grid has another row; its entries are numbers close to the given ones. -/
structure RowBecomes (g g' : Grid rows cols) (i : Fin rows) (row : Fin cols → ℚ) (error : ℚ) :
    Prop where
  others : ∀ a b, a ≠ i → g'.entry a b = g.entry a b
  numeric : ∀ b, (g'.entry i b).isNumeric = true
  near : ∀ b, |g'.rational i b - row b| ≤ error

/-- A scaled row is off by the error of its products. -/
theorem exists_scaleRow_of_within {i : Fin rows} {factor : Value}
    (run : g.scalesWithin t i factor = true) :
    ∃ g', orFault (g.scaleRow i factor) = .ok g' ∧
      g.RowBecomes g' i (factor.rat • g.rational i) t.error ∧
      ∀ b, (g.entry i b).isNumeric = true → g.rational i b = 0 → g'.rational i b = 0 := by
  rw [scalesWithin, List.all_eq_true] at run
  have products : ∀ b, ∃ v, (g.entry i b).mul factor = .ok v ∧ v.isNumeric = true ∧
      |v.rat - (g.entry i b).rat * factor.rat| ≤ t.error :=
    fun b => Tolerance.exists_of_accepts (run b (List.mem_finRange b))
  choose p product numeric near using products
  obtain ⟨g', done, entries⟩ := exists_scaleRow product
  have own : ∀ b, g'.entry i b = p b := fun b => by rw [entries, if_pos rfl]
  refine ⟨g', done, ⟨fun a b other => ?_, fun b => ?_, fun b => ?_⟩, fun b isNumber zero => ?_⟩
  · rw [entries, if_neg other]
  · rw [own]
    exact numeric b
  · rw [rational, own, Pi.smul_apply, smul_eq_mul, mul_comm]
    exact near b
  · rw [rational, own]
    exact Value.rat_mul_eq_zero isNumber zero (product b)

/-- A row with a multiple of another one added is off by the errors of products and sums. -/
theorem exists_addScaledRow_of_within {target source : Fin rows} {factor : Value}
    (run : g.addsWithin t target source factor = true) :
    ∃ g', orFault (g.addScaledRow target source factor) = .ok g' ∧
      g.RowBecomes g' target (g.rational target + factor.rat • g.rational source)
        (2 * t.error) ∧
      ∀ b, (g.entry target b).isNumeric = true → (g.entry source b).isNumeric = true →
        g.rational target b = 0 → g.rational source b = 0 → g'.rational target b = 0 := by
  rw [addsWithin, List.all_eq_true] at run
  have sums : ∀ b, ∃ v w, (g.entry source b).mul factor = .ok v ∧
      (g.entry target b).add v = .ok w ∧ w.isNumeric = true ∧
      |w.rat - ((g.entry target b).rat + factor.rat * (g.entry source b).rat)| ≤ 2 * t.error := by
    intro b
    have steps := run b (List.mem_finRange b)
    rw [Bool.and_eq_true] at steps
    obtain ⟨v, product, _, nearProduct⟩ := Tolerance.exists_of_accepts steps.1
    have added := steps.2
    simp only [product] at added
    obtain ⟨w, sum, numeric, nearSum⟩ := Tolerance.exists_of_accepts added
    refine ⟨v, w, product, sum, numeric, ?_⟩
    rw [abs_le] at nearProduct nearSum ⊢
    constructor <;> linarith [nearProduct.1, nearProduct.2, nearSum.1, nearSum.2,
      mul_comm factor.rat (g.entry source b).rat]
  choose p q product sum numeric near using sums
  obtain ⟨g', done, entries⟩ := exists_addScaledRow product sum
  have own : ∀ b, g'.entry target b = q b := fun b => by rw [entries, if_pos rfl]
  refine ⟨g', done, ⟨fun a b other => ?_, fun b => ?_, fun b => ?_⟩,
    fun b isNumber isNumber' zero zero' => ?_⟩
  · rw [entries, if_neg other]
  · rw [own]
    exact numeric b
  · rw [rational, own]
    exact near b
  · rw [rational, own]
    exact Value.rat_add_eq_zero isNumber zero
      (Value.rat_mul_eq_zero isNumber' zero' (product b)) (sum b)

end Grid

end Reckon
