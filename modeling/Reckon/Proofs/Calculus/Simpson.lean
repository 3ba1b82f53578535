import Mathlib.Analysis.SpecialFunctions.Integrals.Basic
import Mathlib.Topology.Algebra.Polynomial
import Mathlib.Order.Bounds.Basic
import Reckon.Proofs.Calculus.Meaning
import Reckon.Proofs.Calculus.SamplePoints

/-!
# Simpson's rule on cubics

A run of Simpson's rule asks for the integrand at the ends and then at the points between them, once
each. If no operation rounds and there is room for all results, it gives the integral of a
polynomial of degree at most three, whatever the order of the bounds: on each panel of two intervals
the rule is exact, and the panels follow each other.
-/

namespace Reckon

/-! ## What a run asks for -/

section

variable {m : Type → Type} [Monad m] [LawfulMonad m] [MonadExceptOf Fault m]
  {f : Decimal → Except Fault Decimal} {g : Decimal → m Decimal} {act : Decimal → m PUnit}
  {lower upper step : Decimal}

/-- The integrand does something of its own at every point and then has the value that the other
integrand has. -/
def ActsAt (f : Decimal → Except Fault Decimal) (g : Decimal → m Decimal)
    (act : Decimal → m PUnit) : Prop :=
  ∀ x y, f x = .ok y → g x = act x >>= fun _ => pure y

/-- A sample at a point acts there and adds its weighted value to the sum. -/
theorem ActsAt.addSample (h : ActsAt f g act) {sum sum' : Decimal} {i : Nat}
    (value : Reckon.addSample f lower step sum i = .ok sum') :
    ∃ x, interiorPoint? lower step i = some x ∧
      Reckon.addSample g lower step sum i = act x >>= fun _ => pure sum' := by
  obtain ⟨w, sample, isSum⟩ := addSample_eq_ok.1 value
  obtain ⟨x, y, point, atPoint, weighted⟩ := interiorSample_eq_ok.1 sample
  refine ⟨x, point, ?_⟩
  obtain ⟨index, isIndex, offset, isOffset, isPoint⟩ := interiorPoint?_eq_some.1 point
  rw [simpsonWeight] at weighted
  simp only [Reckon.addSample, interiorSample, isIndex, isOffset, isPoint, inRange, pure_bind,
    h x y atPoint, bind_assoc, weighted, isSum]

/-- A run of samples acts at its points in order and adds up the same values. -/
theorem ActsAt.foldlM (h : ActsAt f g act) (is : List Nat) {sum sum' : Decimal}
    (value : is.foldlM (Reckon.addSample f lower step) sum = .ok sum') :
    is.foldlM (Reckon.addSample g lower step) sum =
      (is.filterMap (interiorPoint? lower step)).forM act >>= fun _ => pure sum' := by
  induction is generalizing sum with
  | nil =>
    cases value
    rw [List.foldlM_nil, List.filterMap_nil, List.forM_eq_forM, List.forM_nil, pure_bind]
  | cons i is ih =>
    rw [List.foldlM_cons] at value
    obtain ⟨next, first, others⟩ := bind_eq_ok.1 value
    obtain ⟨x, point, acts⟩ := h.addSample first
    rw [List.filterMap_cons_some point, List.foldlM_cons, acts, bind_assoc, pure_bind, ih others,
      List.forM_eq_forM, List.forM_cons, bind_assoc]

omit [LawfulMonad m] in
/-- A run of samples that succeeds has a point for every index. -/
theorem length_interiorPoints (is : List Nat) {sum sum' : Decimal}
    (value : is.foldlM (addSample f lower step) sum = .ok sum') :
    (is.filterMap (interiorPoint? lower step)).length = is.length := by
  induction is generalizing sum with
  | nil => rfl
  | cons i is ih =>
    rw [List.foldlM_cons] at value
    obtain ⟨next, first, others⟩ := bind_eq_ok.1 value
    obtain ⟨w, sample, _⟩ := addSample_eq_ok.1 first
    obtain ⟨x, y, point, _⟩ := interiorSample_eq_ok.1 sample
    rw [List.filterMap_cons_some point, List.length_cons, List.length_cons, ih others]

/-- A run that gives a result asks for the integrand at the points, in their order and once each. -/
theorem simpson_acts (h : ActsAt f g act) {area : Decimal} {intervals : UInt64}
    (value : simpson lower upper intervals f = .ok area) :
    simpson lower upper intervals g =
      (samplePoints lower upper intervals).forM act >>= fun _ => pure area := by
  obtain ⟨step, first, last, ends, sum, isStep, atLower, atUpper, isEnds, isSum, isArea⟩ :=
    simpson_eq_ok.1 value
  have acts := h.foldlM _ isSum
  simp only [samplePoints, isStep]
  obtain ⟨count, isCount, width, isWidth, isStep⟩ := simpsonStep?_eq_some.1 isStep
  unfold addSample at acts
  have room : ∀ d : Decimal, (inRange (some d) : m Decimal) = pure d := fun _ => rfl
  simp only [simpson, isCount, isWidth, isStep, room, pure_bind, h _ _ atLower,
    h _ _ atUpper, bind_assoc, isEnds, acts, isArea, List.forM_eq_forM, List.forM_cons]

/-- A run that gives a result has room for all its points. -/
theorem length_samplePoints {area : Decimal} {intervals : UInt64}
    (value : simpson lower upper intervals f = .ok area) :
    (samplePoints lower upper intervals).length = (evenIntervals intervals).toNat + 1 := by
  obtain ⟨step, first, last, ends, sum, isStep, _, _, _, isSum, _⟩ := simpson_eq_ok.1 value
  have two := two_le_evenIntervals (ne_greatestIntervals_of_step isStep)
  simp only [samplePoints, isStep, List.length_cons, length_interiorPoints _ isSum,
    List.length_range']
  omega

/-- Over the greatest number of intervals the rule fails before it asks for the integrand. -/
theorem simpson_greatestIntervals {n : Type → Type} [Monad n] [LawfulMonad n]
    (lower upper : Decimal) (g : Decimal → ExceptT Fault n Decimal) :
    simpson lower upper greatestIntervals g = throw (.arithmetic .integralOverflow) := by
  have stops : ∀ {α β : Type} (k : α → ExceptT Fault n β),
      (throw (.arithmetic .integralOverflow) >>= k : ExceptT Fault n β) =
        throw (.arithmetic .integralOverflow) := by
    intro α β k
    apply ExceptT.ext
    simp only [ExceptT.run_bind, ExceptT.run_throw, pure_bind]
  have count : Decimal.ofNat? (evenIntervals greatestIntervals).toNat = some .zero := by
    decide
  rw [simpson]
  simp only [count, inRange, pure_bind]
  cases upper.sub? lower with
  | none => exact stops _
  | some width =>
    simp only [pure_bind, Decimal.div?_zero (show Decimal.zero.isZero = true from rfl)]
    exact stops _

/-- The integrand, with a note of every point at which it is asked for. -/
def noting (f : Decimal → Except Fault Decimal) (x : Decimal) :
    StateT (List Decimal) (Except Fault) Decimal := do
  modify (· ++ [x])
  f x

/-- Noting points one by one adds them to the note in order. -/
theorem forM_modify_run (points noted : List Decimal) :
    StateT.run (points.forM fun x =>
      (modify (· ++ [x]) : StateT (List Decimal) (Except Fault) PUnit)) noted =
        .ok (⟨⟩, noted ++ points) := by
  induction points generalizing noted with
  | nil => rw [List.append_nil]; rfl
  | cons x points ih =>
    have rest := ih (noted ++ [x])
    rw [List.append_assoc] at rest
    exact rest

/-- The points that a run asks for. -/
theorem simpson_noting {area : Decimal} {intervals : UInt64}
    (value : simpson lower upper intervals f = .ok area) :
    (simpson lower upper intervals (noting f)).run [] =
      .ok (area, samplePoints lower upper intervals) := by
  have acts : ActsAt f (noting f) fun x => modify (· ++ [x]) := by
    intro x y atPoint
    rw [noting, atPoint]
    rfl
  rw [simpson_acts acts value, StateT.run_bind, forM_modify_run]
  rfl

end

/-! ## Runs without rounding -/

/-- The result, if there is room for it and it is the exact one. -/
def Decimal.unrounded? (exact : ℚ) (result : Option Decimal) : Option Decimal :=
  result.filter fun d => d.toRat = exact

/-- The weighted sample at a point between the ends, unless an operation on the way to it rounds. -/
def exactSample? (f : Decimal → Except Fault Decimal) (lower step : Decimal) (i : Nat) :
    Option Decimal := do
  let index ← Decimal.unrounded? i (Decimal.ofNat? i)
  let offset ← Decimal.unrounded? (step.toRat * index.toRat) (step.mul? index)
  let x ← Decimal.unrounded? (lower.toRat + offset.toRat) (lower.add? offset)
  let sample ← (f x).toOption
  Decimal.unrounded? (sample.toRat * (simpsonWeight i).toRat) (sample.mul? (simpsonWeight i))

/-- The integral of a function by Simpson's rule, unless an operation of the run rounds. -/
def exactSimpson? (lower upper : Decimal) (intervals : UInt64) (f : Decimal → Except Fault Decimal) :
    Option Decimal := do
  let n := (evenIntervals intervals).toNat
  let count ← Decimal.unrounded? n (Decimal.ofNat? n)
  let width ← Decimal.unrounded? (upper.toRat - lower.toRat) (upper.sub? lower)
  let step ← Decimal.unrounded? (width.toRat / count.toRat) (width.div? count)
  let first ← (f lower).toOption
  let last ← (f upper).toOption
  let ends ← Decimal.unrounded? (first.toRat + last.toRat) (first.add? last)
  let sum ← (List.range' 1 (n - 1)).foldlM (fun sum i => do
    let weighted ← exactSample? f lower step i
    Decimal.unrounded? (sum.toRat + weighted.toRat) (sum.add? weighted)) ends
  let total ← Decimal.unrounded? (sum.toRat * step.toRat) (sum.mul? step)
  Decimal.unrounded? (total.toRat / Decimal.three.toRat) (total.div? .three)

section

variable {f : Decimal → Except Fault Decimal} {lower upper step : Decimal} {intervals : UInt64}

/-- A result is unrounded exactly when it exists and is the exact one. -/
theorem Decimal.unrounded?_eq_some {exact : ℚ} {result : Option Decimal} {d : Decimal} :
    unrounded? exact result = some d ↔ result = some d ∧ d.toRat = exact := by
  rw [unrounded?, Option.filter_eq_some_iff, decide_eq_true_eq]

/-- A computation has a result to go on with exactly when it gives one. -/
theorem toOption_eq_some {α : Type} {x : Except Fault α} {a : α} :
    x.toOption = some a ↔ x = .ok a := by
  cases x with
  | ok b => exact ⟨fun h => congrArg Except.ok (Option.some.inj h), fun h => by cases h; rfl⟩
  | error fault => exact ⟨nofun, nofun⟩

/-- An exact sample is the integrand at its point times its weight, all without rounding. -/
theorem exists_of_exactSample? {i : Nat} {w : Decimal}
    (h : exactSample? f lower step i = some w) :
    ∃ x y, interiorPoint? lower step i = some x ∧ f x = .ok y ∧
      y.mul? (simpsonWeight i) = some w ∧ x.toRat = lower.toRat + i * step.toRat ∧
      w.toRat = (simpsonWeight i).toRat * y.toRat := by
  simp only [exactSample?, Option.bind_eq_bind, Option.bind_eq_some_iff,
    Decimal.unrounded?_eq_some, toOption_eq_some] at h
  obtain ⟨index, ⟨isIndex, whole⟩, offset, ⟨isOffset, apart⟩, x, ⟨isPoint, point⟩, y, value,
    weighted, product⟩ := h
  refine ⟨x, y, ?_, value, weighted, ?_, ?_⟩
  · exact interiorPoint?_eq_some.2 ⟨index, isIndex, offset, isOffset, isPoint⟩
  · rw [point, apart, whole, mul_comm]
  · rw [product, mul_comm]

/-- A run without rounding, up to the area of its weighted sum. -/
theorem exists_of_exactSimpson? {area : Decimal}
    (h : exactSimpson? lower upper intervals f = some area) :
    ∃ step first last ends sum,
      simpsonStep? lower upper (evenIntervals intervals).toNat = some step ∧
      f lower = .ok first ∧ f upper = .ok last ∧ first.add? last = some ends ∧
      (List.range' 1 ((evenIntervals intervals).toNat - 1)).foldlM (fun sum i => do
        let weighted ← exactSample? f lower step i
        Decimal.unrounded? (sum.toRat + weighted.toRat) (sum.add? weighted)) ends = some sum ∧
      ((sum.mul? step).bind fun total => total.div? .three) = some area ∧
      step.toRat = (upper.toRat - lower.toRat) / (evenIntervals intervals).toNat ∧
      ends.toRat = first.toRat + last.toRat ∧ area.toRat = sum.toRat * step.toRat / 3 := by
  simp only [exactSimpson?, Option.bind_eq_bind, Option.bind_eq_some_iff,
    Decimal.unrounded?_eq_some, toOption_eq_some] at h
  obtain ⟨count, ⟨isCount, whole⟩, width, ⟨isWidth, apart⟩, step, ⟨isStep, part⟩, first, atLower,
    last, atUpper, ends, ⟨isEnds, both⟩, sum, isSum, total, ⟨isTotal, product⟩, isArea, third⟩ := h
  refine ⟨step, first, last, ends, sum, ?_, atLower, atUpper, isEnds, isSum, ?_, ?_, both, ?_⟩
  · exact simpsonStep?_eq_some.2 ⟨count, isCount, width, isWidth, isStep⟩
  · rw [isTotal, Option.bind_some, isArea]
  · rw [part, apart, whole]
  · rw [third, product, show Decimal.three.toRat = 3 by decide]

end

/-! ## Panels -/

section

variable {p : Polynomial ℝ}

/-- The values of a cubic. -/
theorem eval_of_natDegree_le_three (cubic : p.natDegree ≤ 3) (t : ℝ) :
    p.eval t = p.coeff 0 + p.coeff 1 * t + p.coeff 2 * t ^ 2 + p.coeff 3 * t ^ 3 := by
  rw [Polynomial.eval_eq_sum_range' (Nat.lt_succ_of_le cubic)]
  simp only [Finset.sum_range_succ, Finset.sum_range_zero, pow_zero, pow_one, mul_one, zero_add]

/-- The integral of a cubic over one panel. -/
theorem integral_panel (cubic : p.natDegree ≤ 3) (c h : ℝ) :
    ∫ t in c..c + 2 * h, p.eval t =
      h / 3 * (p.eval c + 4 * p.eval (c + h) + p.eval (c + 2 * h)) := by
  have monomial : ∀ (n : ℕ) (t : ℝ), HasDerivAt (fun t : ℝ => t ^ (n + 1) / (n + 1)) (t ^ n) t := by
    intro n t
    have power := (hasDerivAt_pow (n + 1) t).div_const ((n : ℝ) + 1)
    rwa [Nat.cast_add_one, Nat.add_sub_cancel, mul_div_cancel_left₀ _ (by positivity)] at power
  have whole : ∀ t, HasDerivAt (fun t => ∑ n ∈ Finset.range 4, p.coeff n * (t ^ (n + 1) / (n + 1)))
      (p.eval t) t := by
    intro t
    rw [Polynomial.eval_eq_sum_range' (Nat.lt_succ_of_le cubic)]
    exact HasDerivAt.fun_sum fun n _ => (monomial n t).const_mul (p.coeff n)
  rw [intervalIntegral.integral_eq_sub_of_hasDerivAt (fun t _ => whole t)
    (p.continuous.intervalIntegrable _ _)]
  simp only [eval_of_natDegree_le_three cubic, Finset.sum_range_succ, Finset.sum_range_zero]
  push_cast
  ring

/-- The weighted values of a polynomial at the points between the ends. -/
noncomputable def weightedSum (p : Polynomial ℝ) (a h : ℝ) (points : List ℕ) : ℝ :=
  (points.map fun i => (simpsonWeight i).toReal * p.eval (a + i * h)).sum

/-- The weighted sum begins with its first point. -/
theorem weightedSum_cons (a h : ℝ) (i : ℕ) (points : List ℕ) :
    weightedSum p a h (i :: points) =
      (simpsonWeight i).toReal * p.eval (a + i * h) + weightedSum p a h points := by
  rw [weightedSum, List.map_cons, List.sum_cons]
  rfl

/-- The weighted sum takes a further point at its end. -/
theorem weightedSum_concat (a h : ℝ) (points : List ℕ) (i : ℕ) :
    weightedSum p a h (points ++ [i]) =
      weightedSum p a h points + (simpsonWeight i).toReal * p.eval (a + i * h) := by
  rw [weightedSum, List.map_append, List.sum_append, List.map_singleton, List.sum_singleton]
  rfl

/-- Points with an odd index have the weight four. -/
theorem toReal_simpsonWeight_odd (m : ℕ) : (simpsonWeight (2 * m + 1)).toReal = 4 := by
  rw [simpsonWeight, if_pos (by omega), Decimal.toReal, show Decimal.four.toRat = 4 by decide,
    Rat.cast_ofNat]

/-- Points with an even index have the weight two. -/
theorem toReal_simpsonWeight_even (m : ℕ) : (simpsonWeight (2 * m)).toReal = 2 := by
  rw [simpsonWeight, if_neg (by omega), Decimal.toReal_two]

/-- The integral of a cubic over panels that follow each other. The last end is counted once, not
twice. -/
theorem integral_panels (cubic : p.natDegree ≤ 3) (a h : ℝ) (m : ℕ) :
    ∫ t in a..a + (2 * m : ℕ) * h, p.eval t =
      h / 3 * (p.eval a + weightedSum p a h (List.range' 1 (2 * m)) -
        p.eval (a + (2 * m : ℕ) * h)) := by
  induction m with
  | zero =>
    simp only [Nat.cast_zero, zero_mul, add_zero, intervalIntegral.integral_same,
      List.range'_zero, weightedSum, List.map_nil, List.sum_nil, sub_self, mul_zero]
  | succ m ih =>
    have next : a + (2 * (m + 1) : ℕ) * h = a + (2 * m : ℕ) * h + 2 * h := by
      push_cast
      ring
    have middle : a + (2 * m + 1 : ℕ) * h = a + (2 * m : ℕ) * h + h := by
      push_cast
      ring
    have sums : weightedSum p a h (List.range' 1 (2 * (m + 1))) =
        weightedSum p a h (List.range' 1 (2 * m)) + 4 * p.eval (a + (2 * m : ℕ) * h + h) +
          2 * p.eval (a + (2 * m : ℕ) * h + 2 * h) := by
      rw [Nat.mul_succ, List.range'_1_concat, List.range'_1_concat, weightedSum_concat,
        weightedSum_concat, Nat.add_comm 1, Nat.add_comm 1, toReal_simpsonWeight_odd, middle,
        show 2 * m + 1 + 1 = 2 * (m + 1) by omega, toReal_simpsonWeight_even, next]
    have integrable : ∀ b c, IntervalIntegrable (fun t => p.eval t) MeasureTheory.volume b c :=
      fun b c => p.continuous.intervalIntegrable b c
    rw [next, ← intervalIntegral.integral_add_adjacent_intervals (integrable _ _) (integrable _ _),
      ih, integral_panel cubic, sums]
    ring

/-- The integral of a cubic by Simpson's rule. -/
theorem integral_eq_simpson (cubic : p.natDegree ≤ 3) (a b : ℝ) {n : ℕ} (even : n % 2 = 0)
    (two : 2 ≤ n) :
    ∫ t in a..b, p.eval t = (p.eval a + p.eval b +
      weightedSum p a ((b - a) / n) (List.range' 1 (n - 1))) * ((b - a) / n) / 3 := by
  obtain ⟨m, rfl⟩ : ∃ m, n = 2 * (m + 1) := ⟨n / 2 - 1, by omega⟩
  have positive : ((2 * (m + 1) : ℕ) : ℝ) ≠ 0 := Nat.cast_ne_zero.2 (by omega)
  have ends : a + (2 * (m + 1) : ℕ) * ((b - a) / (2 * (m + 1) : ℕ)) = b := by
    rw [mul_div_cancel₀ _ positive]
    ring
  have panels := integral_panels cubic a ((b - a) / (2 * (m + 1) : ℕ)) (m + 1)
  have last : List.range' 1 (2 * (m + 1)) =
      List.range' 1 (2 * (m + 1) - 1) ++ [2 * (m + 1)] := by
    rw [show 2 * (m + 1) = 2 * (m + 1) - 1 + 1 by omega, List.range'_1_concat]
    congr 2
    omega
  rw [last, weightedSum_concat, toReal_simpsonWeight_even, ends] at panels
  rw [panels]
  ring

/-! ## Exactness -/

variable {f : Decimal → Except Fault Decimal} {lower upper step : Decimal} {intervals : UInt64}

/-- A run in which no operation rounds or is without room, for an integrand that has the values of
the polynomial at the points of the run. -/
structure RunsExactly (p : Polynomial ℝ) (lower upper : Decimal) (intervals : UInt64)
    (f : Decimal → Except Fault Decimal) : Prop where
  unrounded : (exactSimpson? lower upper intervals f).isSome = true
  samples : ∀ x ∈ samplePoints lower upper intervals, ∀ y, f x = .ok y → y.toReal = p.eval x.toReal

/-- There is no such run over the greatest number of intervals. -/
theorem RunsExactly.ne_greatestIntervals (h : RunsExactly p lower upper intervals f) :
    intervals ≠ greatestIntervals := by
  obtain ⟨area, isArea⟩ := Option.isSome_iff_exists.1 h.unrounded
  obtain ⟨step, first, last, ends, sum, isStep, _⟩ := exists_of_exactSimpson? isArea
  exact ne_greatestIntervals_of_step isStep

/-- A run without rounding adds the weighted values. -/
theorem foldlM_addSample_of_exact (is : List ℕ)
    (samples : ∀ i ∈ is, ∀ x ∈ interiorPoint? lower step i, ∀ y, f x = .ok y →
      y.toReal = p.eval x.toReal) {ends sum : Decimal}
    (h : is.foldlM (fun sum i => do
      let weighted ← exactSample? f lower step i
      Decimal.unrounded? (sum.toRat + weighted.toRat) (sum.add? weighted)) ends = some sum) :
    is.foldlM (addSample f lower step) ends = .ok sum ∧
      sum.toReal = ends.toReal + weightedSum p lower.toReal step.toReal is := by
  induction is generalizing ends with
  | nil =>
    cases h
    exact ⟨rfl, (add_zero _).symm⟩
  | cons i is ih =>
    rw [List.foldlM_cons] at h
    simp only [Option.bind_eq_bind, Option.bind_eq_some_iff, Decimal.unrounded?_eq_some] at h
    obtain ⟨next, ⟨w, sample, isNext, added⟩, others⟩ := h
    obtain ⟨x, y, point, value, weighted, atPoint, product⟩ := exists_of_exactSample? sample
    obtain ⟨run, total⟩ := ih (fun i mem => samples i (List.mem_cons_of_mem _ mem)) others
    have first : addSample f lower step ends i = .ok next :=
      addSample_eq_ok.2 ⟨w, interiorSample_eq_ok.2 ⟨x, y, point, value, weighted⟩, isNext⟩
    have exact : y.toReal = p.eval (lower.toReal + i * step.toReal) := by
      rw [samples i List.mem_cons_self x point y value, Decimal.toReal, atPoint]
      push_cast
      rfl
    refine ⟨?_, ?_⟩
    · rw [List.foldlM_cons]
      exact bind_eq_ok.2 ⟨next, first, run⟩
    · rw [total, weightedSum_cons, ← exact]
      simp only [Decimal.toReal, added, product]
      push_cast
      ring

/-- A run without rounding gives the integral. -/
theorem RunsExactly.exists_area (cubic : p.natDegree ≤ 3)
    (h : RunsExactly p lower upper intervals f) :
    ∃ area, simpson lower upper intervals f = .ok area ∧
      area.toReal = ∫ t in lower.toReal..upper.toReal, p.eval t := by
  obtain ⟨area, isArea⟩ := Option.isSome_iff_exists.1 h.unrounded
  obtain ⟨step, first, last, ends, sum, isStep, atLower, atUpper, isEnds, isSum, total, part, both,
    result⟩ := exists_of_exactSimpson? isArea
  have interior : ∀ i ∈ List.range' 1 ((evenIntervals intervals).toNat - 1),
      ∀ x ∈ interiorPoint? lower step i, ∀ y, f x = .ok y → y.toReal = p.eval x.toReal := by
    intro i mem x point
    exact h.samples x (mem_samplePoints isStep mem point)
  obtain ⟨run, weighted⟩ := foldlM_addSample_of_exact _ interior isSum
  refine ⟨area, simpson_eq_ok.2 ⟨step, first, last, ends, sum, isStep, atLower, atUpper, isEnds,
    run, total⟩, ?_⟩
  have width : step.toReal = (upper.toReal - lower.toReal) / (evenIntervals intervals).toNat := by
    rw [Decimal.toReal, part]
    push_cast
    rfl
  have atEnds : ends.toReal = p.eval lower.toReal + p.eval upper.toReal := by
    rw [← h.samples lower (lower_mem_samplePoints _ _ _) first atLower,
      ← h.samples upper (upper_mem_samplePoints _ _ _) last atUpper, Decimal.toReal, both]
    push_cast
    rfl
  have value : area.toReal = sum.toReal * step.toReal / 3 := by
    rw [Decimal.toReal, result]
    push_cast
    rfl
  rw [value, weighted, atEnds, width,
    integral_eq_simpson cubic _ _ (evenIntervals_even intervals)
      (two_le_evenIntervals h.ne_greatestIntervals)]

/-- Simpson's rule is exact for cubics. For every polynomial of degree at most three, all bounds and
every requested number of intervals, if no operation rounds and there is room for all results, the
rule gives the integral of the polynomial between the bounds, and the opposite between the bounds
in reverse; and it asks for the integrand once more than there are intervals, whose number is the
least even one that is neither below two nor below the requested one. Such runs exist only below the
greatest number that can be requested. There the addition has no room, and the rule fails for every
integrand before it asks for a value. -/
theorem simpson_of_cubic (cubic : p.natDegree ≤ 3) (lower upper : Decimal)
    (f : Decimal → Except Fault Decimal) :
    (∀ intervals, RunsExactly p lower upper intervals f →
      intervals < greatestIntervals ∧
      ∃ area, simpson lower upper intervals f = .ok area ∧
        area.toReal = (∫ t in lower.toReal..upper.toReal, p.eval t) ∧
        (RunsExactly p upper lower intervals f →
          ∃ back, simpson upper lower intervals f = .ok back ∧ back.toReal = -area.toReal) ∧
        (simpson lower upper intervals (noting f)).run [] =
          .ok (area, samplePoints lower upper intervals) ∧
        (samplePoints lower upper intervals).length = (evenIntervals intervals).toNat + 1 ∧
        IsLeast {n | n % 2 = 0 ∧ 2 ≤ n ∧ intervals.toNat ≤ n} (evenIntervals intervals).toNat) ∧
    ∀ {m : Type → Type} [Monad m] [LawfulMonad m] (g : Decimal → ExceptT Fault m Decimal),
      simpson lower upper greatestIntervals g = throw (.arithmetic .integralOverflow) := by
  refine ⟨fun intervals h => ?_, fun g => simpson_greatestIntervals lower upper g⟩
  obtain ⟨area, value, exact⟩ := h.exists_area cubic
  have below := h.ne_greatestIntervals
  refine ⟨lt_greatestIntervals.2 below, area, value, exact, fun reverse => ?_,
    simpson_noting value, length_samplePoints value, isLeast_evenIntervals below⟩
  obtain ⟨back, backValue, backExact⟩ := reverse.exists_area cubic
  refine ⟨back, backValue, ?_⟩
  rw [backExact, exact, intervalIntegral.integral_symm]

/-- The integral of a cube, between bounds in reverse and with a number of intervals that is raised.
-/
theorem simpson_of_cubic_cube :
    let cube : Decimal → Except Fault Decimal := fun x => inRange ((x.mul? x).bind (x.mul? ·))
    let p : Polynomial ℝ := .X ^ 3
    p.natDegree ≤ 3 ∧ RunsExactly p .two .zero 3 cube ∧ RunsExactly p .zero .two 3 cube ∧
      ∃ area, simpson .two .zero 3 cube = .ok area ∧
        area.toReal = (∫ t in Decimal.two.toReal..Decimal.zero.toReal, p.eval t) ∧
        (∃ back, simpson .zero .two 3 cube = .ok back ∧ back.toReal = -area.toReal) ∧
        (samplePoints .two .zero 3).length = 5 := by
  intro cube p
  have cubic : p.natDegree ≤ 3 := Polynomial.natDegree_X_pow_le 3
  have runs : ∀ lower upper, (exactSimpson? lower upper 3 cube).isSome = true →
      (∀ x ∈ samplePoints lower upper 3, ∀ y ∈ (cube x).toOption, y.toRat = x.toRat ^ 3) →
        RunsExactly p lower upper 3 cube := by
    intro lower upper unrounded cubes
    refine ⟨unrounded, fun x mem y value => ?_⟩
    rw [Polynomial.eval_pow, Polynomial.eval_X, Decimal.toReal,
      cubes x mem y (toOption_eq_some.2 value), Rat.cast_pow]
    rfl
  have down : RunsExactly p .two .zero 3 cube := runs _ _ (by decide +kernel) (by decide +kernel)
  have up : RunsExactly p .zero .two 3 cube := runs _ _ (by decide +kernel) (by decide +kernel)
  obtain ⟨below, area, value, exact, back, noted, count, least⟩ :=
    (simpson_of_cubic cubic .two .zero cube).1 3 down
  exact ⟨cubic, down, up, area, value, exact, back up, count⟩

end

end Reckon
