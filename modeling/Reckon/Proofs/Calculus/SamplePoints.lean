import Mathlib.Order.Bounds.Basic
import Reckon.Calculus.Simpson

/-!
# The points of Simpson's rule

Where Simpson's rule asks for the integrand does not depend on the integrand: at the ends first and
then at the points between them. A run that gives a result has room for all of these points.
-/

namespace Reckon

/-! ## Points and weights -/

/-- The step from one point to the next, if there is room for it. -/
def simpsonStep? (lower upper : Decimal) (n : Nat) : Option Decimal := do
  let count ← Decimal.ofNat? n
  let width ← upper.sub? lower
  width.div? count

/-- A point between the ends, if there is room for it. -/
def interiorPoint? (lower step : Decimal) (i : Nat) : Option Decimal := do
  let index ← Decimal.ofNat? i
  let offset ← step.mul? index
  lower.add? offset

/-- The points at which the rule asks for the integrand, in the order in which it does. -/
def samplePoints (lower upper : Decimal) (intervals : UInt64) : List Decimal :=
  let n := (evenIntervals intervals).toNat
  lower :: upper :: match simpsonStep? lower upper n with
    | none => []
    | some step => (List.range' 1 (n - 1)).filterMap (interiorPoint? lower step)

/-- The weight of a point between the ends. -/
def simpsonWeight (i : Nat) : Decimal :=
  if i % 2 = 1 then .four else .two

/-- The number of intervals is the least even one that is not below the requested one, and not
below two. -/
theorem isLeast_evenIntervals {requested : UInt64} (h : requested ≠ greatestIntervals) :
    IsLeast {n | n % 2 = 0 ∧ 2 ≤ n ∧ requested.toNat ≤ n} (evenIntervals requested).toNat := by
  refine ⟨⟨evenIntervals_even _, two_le_evenIntervals h, ?_⟩, ?_⟩
  · rw [toNat_evenIntervals h]
    split
    · rename_i zero
      exact zero ▸ Nat.zero_le 2
    · omega
  · rintro n ⟨even, two, enough⟩
    rw [toNat_evenIntervals h]
    split <;> omega

section

variable {f : Decimal → Except Fault Decimal} {lower upper step : Decimal} {intervals : UInt64}

/-- A range check succeeds on what is there. -/
theorem inRange_eq_ok {x : Option Decimal} {d : Decimal} :
    (inRange x : Except Fault Decimal) = .ok d ↔ x = some d := by
  cases x with
  | none => exact ⟨nofun, nofun⟩
  | some d' => exact ⟨fun h => congrArg some (Except.ok.inj h), fun h => by cases h; rfl⟩

/-- The step is the width over the number of intervals, if there is room for each of them. -/
theorem simpsonStep?_eq_some {n : Nat} :
    simpsonStep? lower upper n = some step ↔ ∃ count, Decimal.ofNat? n = some count ∧
      ∃ width, upper.sub? lower = some width ∧ width.div? count = some step := by
  simp only [simpsonStep?, Option.bind_eq_bind, Option.bind_eq_some_iff]

/-- No width is divided into as many parts as the greatest number is raised to. -/
theorem ne_greatestIntervals_of_step
    (isStep : simpsonStep? lower upper (evenIntervals intervals).toNat = some step) :
    intervals ≠ greatestIntervals := by
  rintro rfl
  obtain ⟨count, isCount, width, isWidth, part⟩ := simpsonStep?_eq_some.1 isStep
  rw [evenIntervals_greatestIntervals] at isCount
  have none : count.isZero = true := by
    cases isCount
    rfl
  rw [Decimal.div?_zero none] at part
  cases part

/-- A point between the ends is so many steps behind the lower one, if there is room for all of it.
-/
theorem interiorPoint?_eq_some {i : Nat} {x : Decimal} :
    interiorPoint? lower step i = some x ↔ ∃ index, Decimal.ofNat? i = some index ∧
      ∃ offset, step.mul? index = some offset ∧ lower.add? offset = some x := by
  simp only [interiorPoint?, Option.bind_eq_bind, Option.bind_eq_some_iff]

/-- A sample between the ends is the integrand at its point times its weight. -/
theorem interiorSample_eq_ok {i : Nat} {w : Decimal} :
    interiorSample f lower step i = .ok w ↔
      ∃ x y, interiorPoint? lower step i = some x ∧ f x = .ok y ∧
        y.mul? (simpsonWeight i) = some w := by
  simp only [interiorSample, interiorPoint?_eq_some, bind_eq_ok, inRange_eq_ok]
  constructor
  · rintro ⟨index, isIndex, offset, isOffset, x, point, y, value, weighted⟩
    exact ⟨x, y, ⟨index, isIndex, offset, isOffset, point⟩, value, weighted⟩
  · rintro ⟨x, y, ⟨index, isIndex, offset, isOffset, point⟩, value, weighted⟩
    exact ⟨index, isIndex, offset, isOffset, x, point, y, value, weighted⟩

/-- One more point in the sum of a run. -/
def addSample {m : Type → Type} [Monad m] [MonadExceptOf Fault m] (f : Decimal → m Decimal)
    (lower step sum : Decimal) (i : Nat) : m Decimal := do
  inRange (sum.add? (← interiorSample f lower step i))

/-- A sample is added when it has a value and there is room for the sum. -/
theorem addSample_eq_ok {sum sum' : Decimal} {i : Nat} :
    addSample f lower step sum i = .ok sum' ↔
      ∃ w, interiorSample f lower step i = .ok w ∧ sum.add? w = some sum' := by
  simp only [addSample, bind_eq_ok, inRange_eq_ok]

/-- What a run goes through that gives a result. -/
theorem simpson_eq_ok {area : Decimal} :
    simpson lower upper intervals f = .ok area ↔
      ∃ step first last ends sum,
        simpsonStep? lower upper (evenIntervals intervals).toNat = some step ∧
        f lower = .ok first ∧ f upper = .ok last ∧ first.add? last = some ends ∧
        (List.range' 1 ((evenIntervals intervals).toNat - 1)).foldlM (addSample f lower step) ends =
          .ok sum ∧
        ((sum.mul? step).bind fun total => total.div? .three) = some area := by
  simp only [simpson, simpsonStep?_eq_some, bind_eq_ok, inRange_eq_ok]
  constructor
  · rintro ⟨count, isCount, width, isWidth, step, isStep, first, atLower, last, atUpper, ends,
      isEnds, sum, isSum, isArea⟩
    exact ⟨step, first, last, ends, sum, ⟨count, isCount, width, isWidth, isStep⟩, atLower,
      atUpper, isEnds, isSum, isArea⟩
  · rintro ⟨step, first, last, ends, sum, ⟨count, isCount, width, isWidth, isStep⟩, atLower,
      atUpper, isEnds, isSum, isArea⟩
    exact ⟨count, isCount, width, isWidth, step, isStep, first, atLower, last, atUpper, ends,
      isEnds, sum, isSum, isArea⟩

/-- The lower end is a sample point. -/
theorem lower_mem_samplePoints (lower upper : Decimal) (intervals : UInt64) :
    lower ∈ samplePoints lower upper intervals :=
  List.mem_cons_self

/-- The upper end is a sample point. -/
theorem upper_mem_samplePoints (lower upper : Decimal) (intervals : UInt64) :
    upper ∈ samplePoints lower upper intervals :=
  List.mem_cons_of_mem _ List.mem_cons_self

/-- Every point between the ends is a sample point. -/
theorem mem_samplePoints {i : Nat} {x : Decimal}
    (isStep : simpsonStep? lower upper (evenIntervals intervals).toNat = some step)
    (inside : i ∈ List.range' 1 ((evenIntervals intervals).toNat - 1))
    (point : interiorPoint? lower step i = some x) : x ∈ samplePoints lower upper intervals := by
  simp only [samplePoints, isStep, List.mem_cons, List.mem_filterMap]
  exact .inr (.inr ⟨i, inside, point⟩)

end

end Reckon
