import Reckon.Decimal.Arithmetic
import Reckon.Fault

/-!
# Simpson's rule

The composite rule with an even number of intervals: the ends count once, odd points four times and
even ones twice. The integrand may have effects of its own, and it is asked for the lower end, the
upper end and then the points between them in increasing order.
-/

namespace Reckon

/-- The number of intervals that the `int` form uses. -/
def defaultIntervals : UInt64 := 200

/-- The greatest number of intervals that can be requested. -/
def greatestIntervals : UInt64 := 0xffffffffffffffff

/-- The even number of intervals for a requested one: at least two, an odd one raised by one. The
greatest number is odd and the words have no room for the next one: the addition starts over at zero,
and no width can be divided into zero intervals. -/
def evenIntervals (requested : UInt64) : UInt64 :=
  if requested = 0 then 2 else requested + requested % 2

section

variable {m : Type → Type} [Monad m] [MonadExceptOf Fault m]

/-- A result, or the fault of an integral without room. -/
def inRange : Option Decimal → m Decimal
  | some d => pure d
  | none => throw (.arithmetic .integralOverflow)

/-- The weighted sample of an integrand at one of the points between the ends. -/
def interiorSample (f : Decimal → m Decimal) (lower step : Decimal) (i : Nat) : m Decimal := do
  let index ← inRange (Decimal.ofNat? i)
  let offset ← inRange (step.mul? index)
  let x ← inRange (lower.add? offset)
  let sample ← f x
  inRange (sample.mul? (if i % 2 = 1 then .four else .two))

/-- The integral of `f` between two bounds by Simpson's rule. -/
def simpson (lower upper : Decimal) (intervals : UInt64) (f : Decimal → m Decimal) : m Decimal := do
  let n := (evenIntervals intervals).toNat
  let count ← inRange (Decimal.ofNat? n)
  let width ← inRange (upper.sub? lower)
  let step ← inRange (width.div? count)
  let first ← f lower
  let last ← f upper
  let ends ← inRange (first.add? last)
  let sum ← (List.range' 1 (n - 1)).foldlM
    (fun sum i => do inRange (sum.add? (← interiorSample f lower step i))) ends
  inRange ((sum.mul? step).bind fun total => total.div? .three)

end

/-- Raising the greatest number starts over at zero. -/
theorem evenIntervals_greatestIntervals : evenIntervals greatestIntervals = 0 := by
  decide

/-- The numbers that are not the greatest one are those below it. -/
theorem lt_greatestIntervals {requested : UInt64} :
    requested < greatestIntervals ↔ requested ≠ greatestIntervals := by
  have bound := requested.toNat_lt
  rw [UInt64.lt_iff_toNat_lt, ne_eq, ← UInt64.toNat_inj,
    show greatestIntervals.toNat = 2 ^ 64 - 1 from rfl]
  omega

/-- Below the greatest number the addition has room. -/
theorem toNat_evenIntervals {requested : UInt64} (h : requested ≠ greatestIntervals) :
    (evenIntervals requested).toNat =
      if requested = 0 then 2 else requested.toNat + requested.toNat % 2 := by
  have below : requested.toNat ≠ 2 ^ 64 - 1 := fun same => h (UInt64.toNat_inj.1 same)
  have bound := requested.toNat_lt
  rw [evenIntervals]
  split
  · rfl
  · rw [UInt64.toNat_add, UInt64.toNat_mod, show (2 : UInt64).toNat = 2 from rfl]
    omega

/-- The number of intervals is even for every request. -/
theorem evenIntervals_even (requested : UInt64) : (evenIntervals requested).toNat % 2 = 0 := by
  by_cases h : requested = greatestIntervals
  · rw [h, evenIntervals_greatestIntervals]
    rfl
  · rw [toNat_evenIntervals h]
    split <;> omega

/-- There are at least two intervals below the greatest number. -/
theorem two_le_evenIntervals {requested : UInt64} (h : requested ≠ greatestIntervals) :
    2 ≤ (evenIntervals requested).toNat := by
  rw [toNat_evenIntervals h]
  split
  · exact Nat.le_refl 2
  · rename_i positive
    have : requested.toNat ≠ 0 := fun zero => positive (UInt64.toNat_inj.1 zero)
    omega

end Reckon
