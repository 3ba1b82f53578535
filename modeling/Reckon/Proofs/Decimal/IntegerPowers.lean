import Reckon.Proofs.Decimal.Operators
import Reckon.Proofs.Decimal.WideIntegers

/-!
# Powers of integers

An integer to the power of an integer is exact or refused: it is refused exactly when the power with
the magnitude of the exponent has no room, or when zero is raised to a negative power, and a negative
exponent gives the reciprocal of the exact power, rounded once. The squares on the way never ask for
more room than the power itself, and wide numbers, which are used from exponent 1024 on, only matter
for the powers of -1: any larger base has no room left there.
-/

namespace Reckon.Decimal

/-! ## Powers by squaring -/

section BinaryPower

variable {α : Type} {mul : α → α → Option α} (StandsFor : α → ℤ → Prop)

/-- Taking a square instead of two factors, and a factor where the exponent is odd, comes to the
same power. -/
theorem mul_pow_half (x y : ℤ) (n : Nat) :
    (if n % 2 = 1 then y * x else y) * (x * x) ^ (n / 2) = y * x ^ n := by
  conv => rhs; rw [← Nat.div_add_mod n 2, pow_add, pow_mul, pow_two]
  split
  · next odd =>
    rw [odd, pow_one]
    ring
  · next even =>
    rw [show n % 2 = 0 by omega, pow_zero, mul_one]

/-- Where products are exact, so are powers. -/
theorem standsFor_binaryPower
    (multiplies : ∀ {a b c x y}, StandsFor a x → StandsFor b y → mul a b = some c →
      StandsFor c (x * y))
    {power product result : α} {x y : ℤ} {n : Nat} (hx : StandsFor power x)
    (hy : StandsFor product y) (done : binaryPower mul power product n = some result) :
    StandsFor result (y * x ^ n) := by
  induction n using Nat.strongRecOn generalizing power product x y with
  | _ n ih =>
    rw [binaryPower] at done
    split at done
    · cases done
    · next product' first =>
      have hy' : StandsFor product' (if n % 2 = 1 then y * x else y) := by
        split at first
        · next odd =>
          rw [if_pos odd]
          exact multiplies hy hx first
        · next even =>
          cases first
          rwa [if_neg even]
      have whole := mul_pow_half x y n
      split at done
      · next last =>
        cases done
        rw [last, pow_zero, mul_one] at whole
        rwa [← whole]
      · next more =>
        split at done
        · cases done
        · next square squared =>
          rw [← whole]
          exact ih (n / 2) (by omega) (multiplies hx hx squared) hy' done

/-- Where products with room are found, so are powers: no square on the way is larger than the
result. -/
theorem exists_binaryPower (bound : ℤ)
    (multiplies : ∀ {a b x y}, StandsFor a x → StandsFor b y → x ≠ 0 → y ≠ 0 → |x * y| < bound →
      ∃ c, mul a b = some c ∧ StandsFor c (x * y))
    {power product : α} {x y : ℤ} {n : Nat} (hx : StandsFor power x) (hy : StandsFor product y)
    (nonzero : x ≠ 0) (nonzero' : y ≠ 0) (room : |y * x ^ n| < bound) :
    ∃ c, binaryPower mul power product n = some c ∧ StandsFor c (y * x ^ n) := by
  induction n using Nat.strongRecOn generalizing power product x y with
  | _ n ih =>
    have whole := mul_pow_half x y n
    have one (z : ℤ) (h : z ≠ 0) : 1 ≤ |z| := Int.one_le_abs h
    have first : ∃ c, (if n % 2 = 1 then mul product power else some product) = some c ∧
        StandsFor c (if n % 2 = 1 then y * x else y) := by
      split
      · next odd =>
        refine multiplies hy hx nonzero' nonzero (lt_of_le_of_lt ?_ room)
        rw [abs_mul, abs_mul, abs_pow]
        exact mul_le_mul_of_nonneg_left (le_self_pow₀ (one x nonzero) (by omega)) (abs_nonneg y)
      · exact ⟨product, rfl, hy⟩
    obtain ⟨product', taken, hy'⟩ := first
    rw [binaryPower, taken]
    dsimp only
    by_cases last : n / 2 = 0
    · rw [if_pos last]
      rw [last, pow_zero, mul_one] at whole
      exact ⟨product', rfl, whole ▸ hy'⟩
    · have square : |x * x| < bound := by
        refine lt_of_le_of_lt ?_ room
        rw [abs_mul y, abs_pow, ← pow_two, abs_pow]
        calc |x| ^ 2 ≤ |x| ^ n := pow_le_pow_right₀ (one x nonzero) (by omega)
          _ = 1 * |x| ^ n := (one_mul _).symm
          _ ≤ |y| * |x| ^ n :=
            mul_le_mul_of_nonneg_right (one y nonzero') (pow_nonneg (abs_nonneg x) n)
      obtain ⟨squared, isSquare, hx'⟩ := multiplies hx hx nonzero nonzero square
      rw [if_neg last, isSquare]
      dsimp only
      have factor : (if n % 2 = 1 then y * x else y) ≠ 0 := by
        split
        · exact mul_ne_zero nonzero' nonzero
        · exact nonzero'
      rw [← whole]
      exact ih (n / 2) (by omega) hx' hy' (mul_ne_zero nonzero nonzero) factor (by rwa [whole])

end BinaryPower

/-! ## Powers with a natural exponent -/

variable {base : Decimal} {b : ℤ}

/-- Powers of an integer by decimal products. -/
theorem binaryPower_of_integer (value : base.toRat = b) (nonzero : b ≠ 0) (n : Nat) :
    (∀ d, binaryPower mul? base one n = some d → d.toRat = (b ^ n : ℤ)) ∧
      (|b ^ n| < 2 ^ 96 → ∃ d, binaryPower mul? base one n = some d) := by
  have unit : one.toRat = (1 : ℤ) := by rw [toRat_one, Int.cast_one]
  constructor
  · intro d done
    have power := standsFor_binaryPower (fun (d : Decimal) (n : ℤ) => d.toRat = n)
      (fun hx hy product => toRat_mul?_of_integers hx hy product) value unit done
    rwa [one_mul] at power
  · intro room
    obtain ⟨d, done, -⟩ := exists_binaryPower (fun (d : Decimal) (n : ℤ) => d.toRat = n)
      (2 ^ 96) (fun hx hy _ _ small => exists_mul?_of_integers hx hy small) value unit
      nonzero one_ne_zero (n := n) (by rwa [one_mul])
    exact ⟨d, done⟩

/-- Powers of an integer by wide products are exact, and those of -1 are found. -/
theorem widePower_of_integer (value : base.toRat = b) (n : Nat) :
    let power := (binaryPower Wide.mul? ⟨base.negative, base.mantissa, base.scale⟩ ⟨false, 1, 0⟩ n).bind
      Wide.toDecimal?
    (∀ d, power = some d → d.toRat = (b ^ n : ℤ)) ∧ (|b| = 1 → ∃ d, power = some d) := by
  have stands := Wide.standsFor_of_toRat value
  have unit : Wide.StandsFor ⟨false, 1, 0⟩ 1 := ⟨rfl, fun _ => rfl⟩
  constructor
  · intro d done
    obtain ⟨w, powered, fits⟩ := Option.bind_eq_some_iff.1 done
    have power := standsFor_binaryPower Wide.StandsFor
      (fun hx hy product => hx.mul? hy product) stands unit powered
    rw [one_mul] at power
    exact power.toDecimal? fits
  · intro one
    have nonzero : b ≠ 0 := abs_pos.1 (one ▸ one_pos)
    have room : |1 * b ^ n| < 2 := by
      rw [one_mul, abs_pow, one, one_pow]
      decide
    have multiplies : ∀ {v w : Wide} {x y : ℤ}, v.StandsFor x ∧ v.scale ≤ 57 →
        w.StandsFor y ∧ w.scale ≤ 57 → x ≠ 0 → y ≠ 0 → |x * y| < 2 →
        ∃ c, v.mul? w = some c ∧ c.StandsFor (x * y) ∧ c.scale ≤ 57 := by
      intro v w x y hv hw nonzeroX nonzeroY small
      have product : |x * y| = 1 := by
        have large := Int.one_le_abs (mul_ne_zero nonzeroX nonzeroY)
        omega
      rw [← Int.isUnit_iff_abs_eq, IsUnit.mul_iff, Int.isUnit_iff_abs_eq, Int.isUnit_iff_abs_eq]
        at product
      obtain ⟨c, found, short⟩ := Wide.exists_mul? (hv.1.mantissa_of_unit product.1)
        (hw.1.mantissa_of_unit product.2) hv.2 hw.2
      exact ⟨c, found, hv.1.mul? hw.1 found, short⟩
    obtain ⟨w, powered, power, short⟩ := exists_binaryPower
      (fun (w : Wide) n => w.StandsFor n ∧ w.scale ≤ 57) 2 multiplies
      ⟨stands, base.scale_le.trans (by decide)⟩ ⟨unit, by decide⟩ nonzero one_ne_zero room
    have isUnit : |1 * b ^ n| = 1 := by rw [one_mul, abs_pow, one, one_pow]
    obtain ⟨d, fits⟩ := Wide.exists_toDecimal? (power.mantissa_of_unit isUnit) short
    exact ⟨d, Option.bind_eq_some_iff.2 ⟨w, powered, fits⟩⟩

/-- An integer that is found exactly, and found whenever it is below `2 ^ 96`. -/
theorem map_toRat_of_integer {x : ℤ} {result : Option Decimal}
    (exact' : ∀ d, result = some d → d.toRat = x) (room : |x| < 2 ^ 96 → ∃ d, result = some d) :
    result.map toRat = if |x| < 2 ^ 96 then some (x : ℚ) else none := by
  split
  · next fits =>
    obtain ⟨d, rfl⟩ := room fits
    rw [Option.map_some, exact' d rfl]
  · next large =>
    rw [Option.map_eq_none_iff, Option.eq_none_iff_forall_ne_some]
    intro d found
    have bound := abs_toRat_lt d
    rw [exact' d found] at bound
    exact large (by exact_mod_cast bound)

/-- A base that is no unit has no power with a wide exponent. -/
theorem abs_eq_one_of_wide {n : Nat} (nonzero : b ≠ 0) (wide : 1024 ≤ n) (room : |b ^ n| < 2 ^ 96) :
    |b| = 1 := by
  have large := Int.one_le_abs nonzero
  by_contra more
  have two : 2 ≤ |b| := by omega
  have power : (2 : ℤ) ^ 96 ≤ |b ^ n| := by
    rw [abs_pow]
    exact (pow_le_pow_left₀ (by decide) two 96).trans (pow_le_pow_right₀ large (by omega))
  exact absurd room (not_lt.2 power)

/-- A power of an integer with a natural exponent is exact if it is below `2 ^ 96`, and refused
otherwise. -/
theorem toRat_pow?_of_integer (value : base.toRat = b) (n : Nat) :
    (base.pow? n).map toRat = if |b ^ n| < 2 ^ 96 then some ((b ^ n : ℤ) : ℚ) else none := by
  rw [pow?]
  by_cases zeroth : n = 0
  · rw [if_pos zeroth, zeroth, pow_zero]
    rfl
  by_cases zero : base.isZero = true
  · have none : b = 0 := by exact_mod_cast value.symm.trans (toRat_of_isZero zero)
    rw [if_neg zeroth, if_pos zero, none, zero_pow zeroth]
    rfl
  by_cases isOne : base.same one = true
  · have one : b = 1 := by
      rw [same_iff, toRat_one, value] at isOne
      exact_mod_cast isOne
    rw [if_neg zeroth, if_neg zero, if_pos isOne, one, one_pow]
    rfl
  rw [if_neg zeroth, if_neg zero, if_neg isOne]
  have nonzero : b ≠ 0 := by
    rintro rfl
    exact zero (isZero_of_toRat_eq_zero (by rw [value, Int.cast_zero]))
  split
  · next first =>
    refine map_toRat_of_integer (fun d same => ?_) fun _ => ⟨base, rfl⟩
    rw [← Option.some.inj same, value, first, pow_one]
  · split
    · next second =>
      rw [second, pow_two]
      refine map_toRat_of_integer (fun d => toRat_mul?_of_integers value value) fun room => ?_
      obtain ⟨d, square, -⟩ := exists_mul?_of_integers value value room
      exact ⟨d, square⟩
    · split
      · next narrow =>
        obtain ⟨exact', room⟩ := binaryPower_of_integer value nonzero n
        refine map_toRat_of_integer (fun d power => ?_) fun fits => ?_
        · obtain ⟨own, powered, rfl⟩ := Option.map_eq_some_iff.1 power
          rw [toRat_normalize, exact' own powered]
        · obtain ⟨d, powered⟩ := room fits
          exact ⟨_, congrArg _ powered⟩
      · next wide =>
        obtain ⟨exact', unit⟩ := widePower_of_integer value n
        exact map_toRat_of_integer exact' fun fits =>
          unit (abs_eq_one_of_wide nonzero (Nat.le_of_not_lt wide) fits)

/-! ## Powers with an integer exponent -/

/-- The reciprocal of an integer other than zero is rounded once. -/
theorem exists_reciprocal {d : Decimal} (value : d.toRat = b) (nonzero : b ≠ 0) :
    ∃ r, one.div? d = some r ∧ IsRoundingOf (1 / b) r := by
  have divisor : d.isZero = false := by
    rw [Bool.eq_false_iff]
    intro zero
    rw [isZero_iff_toRat, value, Int.cast_eq_zero] at zero
    exact nonzero zero
  have small : one.mantissa * 10 ^ d.scale ≤ d.mantissa * 10 ^ one.scale := by
    have positive : 0 < b.natAbs := Int.natAbs_pos.2 nonzero
    rw [mantissa_of_toRat value]
    change 1 * 10 ^ d.scale ≤ b.natAbs * 10 ^ d.scale * 10 ^ 0
    rw [pow_zero, Nat.mul_one]
    exact Nat.mul_le_mul_right _ positive
  obtain ⟨r, quotient⟩ := exists_div?_of_abs_le rfl divisor small
  have rounds := isRoundingOf_div? rfl divisor quotient
  rw [toRat_one, value] at rounds
  exact ⟨r, quotient, rounds⟩

/-- A power with an integer exponent of 64 bits is a power with a natural one, or the reciprocal of
one. -/
theorem power_of_integer {exponent : Decimal} {n : ℤ} (hn : exponent.toRat = n)
    (above : -2 ^ 63 < n) (below : n < 2 ^ 63) (base : Decimal) :
    base.power exponent =
      if 0 ≤ n then orProblem (.powerOverflow base exponent) (base.pow? n.toNat)
      else if base.isZero then .error (.arithmetic .zeroToNegativePower)
      else orProblem (.powerOverflow base exponent) ((base.pow? (-n).toNat).bind one.div?) := by
  have inside : ¬(n < leastInt64 ∨ 2 ^ 63 ≤ n) := by
    rw [leastInt64]
    omega
  have notLeast : n ≠ leastInt64 := by
    rw [leastInt64]
    omega
  rw [power, isInteger_of_toRat hn, truncate_of_toRat hn, if_pos rfl]
  dsimp only
  rw [if_neg inside, if_neg notLeast]

/-- Integer powers are exact or refused. With a natural exponent the power of an integer is exact
if it is below `2 ^ 96` in magnitude, and an arithmetic fault otherwise. With a negative one it is a
fault for zero, and where the power with the opposite exponent is one; otherwise it is the
reciprocal of that power, rounded once. -/
theorem integer_power_exact_or_refused {base exponent : Decimal} {b n : ℤ} (hb : base.toRat = b)
    (hn : exponent.toRat = n) (above : -2 ^ 63 < n) (below : n < 2 ^ 63) :
    (0 ≤ n → (|b ^ n.toNat| < 2 ^ 96 →
        ∃ d, base.power exponent = .ok d ∧ d.toRat = (b ^ n.toNat : ℤ)) ∧
      (2 ^ 96 ≤ |b ^ n.toNat| → ∃ problem, base.power exponent = .error (.arithmetic problem))) ∧
    (n < 0 → (b = 0 ∨ 2 ^ 96 ≤ |b ^ (-n).toNat| →
        ∃ problem, base.power exponent = .error (.arithmetic problem)) ∧
      (b ≠ 0 → |b ^ (-n).toNat| < 2 ^ 96 →
        ∃ d, base.power exponent = .ok d ∧ IsRoundingOf (1 / (b ^ (-n).toNat : ℤ)) d)) := by
  rw [power_of_integer hn above below]
  constructor
  · intro natural
    have power := toRat_pow?_of_integer hb n.toNat
    rw [if_pos natural]
    constructor
    · intro room
      rw [if_pos room] at power
      obtain ⟨d, found, same⟩ := Option.map_eq_some_iff.1 power
      exact ⟨d, by rw [found, orProblem], same⟩
    · intro large
      rw [if_neg (not_lt.2 large), Option.map_eq_none_iff] at power
      exact ⟨_, by rw [power, orProblem]⟩
  · intro negative
    have power := toRat_pow?_of_integer hb (-n).toNat
    rw [if_neg (not_le.2 negative)]
    constructor
    · intro refused
      by_cases zero : base.isZero = true
      · exact ⟨_, if_pos zero⟩
      · have nonzero : b ≠ 0 := by
          rintro rfl
          exact zero (isZero_of_toRat_eq_zero (by rw [hb, Int.cast_zero]))
        have large := refused.resolve_left nonzero
        rw [if_neg (not_lt.2 large), Option.map_eq_none_iff] at power
        exact ⟨_, by rw [if_neg zero, power, Option.bind_none, orProblem]⟩
    · intro nonzero room
      have notZero : ¬base.isZero = true := by
        rw [isZero_iff_toRat, hb, Int.cast_eq_zero]
        exact nonzero
      rw [if_pos room] at power
      obtain ⟨d, found, same⟩ := Option.map_eq_some_iff.1 power
      obtain ⟨r, quotient, rounds⟩ := exists_reciprocal same (pow_ne_zero _ nonzero)
      exact ⟨r, by rw [if_neg notZero, found, Option.bind_some, quotient, orProblem], rounds⟩

/-- The number -1 with two places has the wide power 1025, 3.00 the power -5 rounded to 28 places,
and the tenth power of -10000000000 is refused. -/
theorem integer_power_exact_or_refused_wide :
    let unit : Decimal := ⟨true, 100, 2, by decide, by decide⟩
    let three : Decimal := ⟨false, 300, 2, by decide, by decide⟩
    let large : Decimal := ⟨true, 10000000000, 0, by decide, by decide⟩
    let whole (negative : Bool) (n : Nat) (small : n < 2 ^ 96) : Decimal :=
      ⟨negative, n, 0, small, by decide⟩
    (∃ d, unit.power (whole false 1025 (by decide)) = .ok d ∧ d.toRat = -1) ∧
      (∃ d, three.power (whole true 5 (by decide)) = .ok d ∧ IsRoundingOf (1 / 243) d) ∧
      ∃ problem, large.power (whole false 10 (by decide)) = .error (.arithmetic problem) := by
  intro unit three large whole
  have hUnit : unit.toRat = (-1 : ℤ) := by decide
  have hThree : three.toRat = (3 : ℤ) := by decide
  have hLarge : large.toRat = (-10000000000 : ℤ) := by decide
  have h1025 : (whole false 1025 (by decide)).toRat = (1025 : ℤ) := by decide
  have hMinus5 : (whole true 5 (by decide)).toRat = (-5 : ℤ) := by decide
  have h10 : (whole false 10 (by decide)).toRat = (10 : ℤ) := by decide
  have units : (-1 : ℤ) ^ (1025 : ℤ).toNat = -1 := Odd.neg_one_pow (by decide)
  obtain ⟨d, isPower, value⟩ := ((integer_power_exact_or_refused hUnit h1025 (by decide)
    (by decide)).1 (by decide)).1 (by rw [units]; decide)
  refine ⟨⟨d, isPower, by rw [value, units, Int.cast_neg, Int.cast_one]⟩, ?_, ?_⟩
  · obtain ⟨r, isPower, rounds⟩ := ((integer_power_exact_or_refused hThree hMinus5 (by decide)
      (by decide)).2 (by decide)).2 (by decide) (by decide)
    rw [show (3 : ℤ) ^ (-(-5 : ℤ)).toNat = 243 by decide, Int.cast_ofNat] at rounds
    exact ⟨r, isPower, rounds⟩
  · exact ((integer_power_exact_or_refused hLarge h10 (by decide) (by decide)).1 (by decide)).2
      (by decide)

end Reckon.Decimal