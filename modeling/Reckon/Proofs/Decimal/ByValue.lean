import Reckon.Arithmetic
import Reckon.Proofs.Decimal.Fit

/-!
# Arithmetic by value

What an operation computes depends on the numbers and not on their scales: for operands that are the
same numbers, the results are the same number, or there is none for either pair. The four operations
of arithmetic, comparisons and powers with a small integer exponent are all of this kind. Powers
from exponent 1024 on are not, and for powers with a fraction nothing is said.
-/

namespace Reckon.Decimal

variable {a a' b b' : Decimal}

/-! ## Parts of equal numbers -/

/-- Equal numbers have equal signed mantissas once they are brought to one scale. -/
theorem signed_mul_pow (h : a.toRat = a'.toRat) :
    a.signed * 10 ^ a'.scale = a'.signed * 10 ^ a.scale :=
  toRat_eq_iff.1 h

/-- Equal numbers have equal mantissas once they are brought to one scale. -/
theorem mantissa_mul_pow (h : a.toRat = a'.toRat) :
    a.mantissa * 10 ^ a'.scale = a'.mantissa * 10 ^ a.scale := by
  have cross := congrArg Int.natAbs (signed_mul_pow h)
  rw [Int.natAbs_mul, Int.natAbs_mul, signed_natAbs, signed_natAbs, Int.natAbs_pow,
    Int.natAbs_pow] at cross
  exact cross

/-- The powers of ten are positive. -/
theorem pow_ten_pos (scale : Nat) : 0 < 10 ^ scale :=
  Nat.pow_pos (by omega)

/-- Of equal numbers both are zero or neither is. -/
theorem isZero_congr (h : a.toRat = a'.toRat) : a.isZero = a'.isZero := by
  have cross := mantissa_mul_pow h
  have zeros : a.mantissa = 0 ↔ a'.mantissa = 0 := by
    constructor
    · intro zero
      rw [zero, Nat.zero_mul, eq_comm, Nat.mul_eq_zero] at cross
      exact cross.resolve_right (pow_ten_ne_zero _)
    · intro zero
      rw [zero, Nat.zero_mul, Nat.mul_eq_zero] at cross
      exact cross.resolve_right (pow_ten_ne_zero _)
  rw [isZero, isZero, Bool.eq_iff_iff, beq_iff_eq, beq_iff_eq, zeros]

/-- The mantissa of a number other than zero is not zero. -/
theorem mantissa_ne_zero (h : a.isZero = false) : a.mantissa ≠ 0 :=
  beq_eq_false_iff_ne.1 h

/-- The sign of a number other than zero is that of its mantissa. -/
theorem negative_iff (h : a.isZero = false) : a.negative = true ↔ a.signed < 0 := by
  have positive : 0 < a.mantissa := Nat.pos_of_ne_zero (mantissa_ne_zero h)
  rw [signed]
  cases a.negative with
  | true =>
    rw [if_pos rfl]
    simp only [true_iff]
    omega
  | false =>
    rw [if_neg Bool.false_ne_true]
    simp only [Bool.false_eq_true, false_iff]
    omega

/-- An integer keeps its sign when it is moved to another power of ten. -/
theorem neg_of_mul_pow {m m' : Int} {s s' : Nat} (h : m * 10 ^ s' = m' * 10 ^ s)
    (negative : m < 0) : m' < 0 := by
  have unit : (0 : Int) < 10 ^ s := Int.pow_pos (by omega)
  have unit' : (0 : Int) < 10 ^ s' := Int.pow_pos (by omega)
  have product : m * 10 ^ s' < 0 := Int.mul_neg_of_neg_of_pos negative unit'
  rw [h] at product
  refine Int.lt_of_not_ge fun nonnegative => ?_
  have := Int.mul_nonneg nonnegative (Int.le_of_lt unit)
  omega

/-- Bringing mantissas to one scale keeps their signs. -/
theorem neg_iff_of_mul_pow {m m' : Int} {s s' : Nat} (h : m * 10 ^ s' = m' * 10 ^ s) :
    m < 0 ↔ m' < 0 :=
  ⟨neg_of_mul_pow h, neg_of_mul_pow h.symm⟩

/-- Equal numbers other than zero have the same sign. -/
theorem negative_congr (h : a.toRat = a'.toRat) (nonzero : a.isZero = false) :
    a.negative = a'.negative := by
  have nonzero' : a'.isZero = false := isZero_congr h ▸ nonzero
  rw [Bool.eq_iff_iff, negative_iff nonzero, negative_iff nonzero']
  exact neg_iff_of_mul_pow (signed_mul_pow h)

/-- What is tested to be zero has the value zero. -/
theorem toRat_of_isZero (h : a.isZero = true) : a.toRat = 0 := by
  have zero : a.mantissa = 0 := beq_iff_eq.1 h
  rw [toRat, signed, zero]
  simp

/-! ## Normal forms -/

/-- Trimming leaves no zero at the end of a fraction. -/
theorem trimZeros_trimmed (mantissa scale : Nat) :
    (trimZeros mantissa scale).2 = 0 ∨ (trimZeros mantissa scale).1 % 10 ≠ 0 := by
  induction scale generalizing mantissa with
  | zero => exact .inl rfl
  | succ scale ih =>
    unfold trimZeros
    split
    · exact ih (mantissa / 10)
    · next last => exact .inr last

/-- Without zeros at the end of the fraction, a number is written in one way. -/
theorem trimmed_scale_le {m m' s s' : Nat} (cross : m * 10 ^ s' = m' * 10 ^ s)
    (short : s' = 0 ∨ m' % 10 ≠ 0) : s' ≤ s := by
  refine Nat.le_of_not_lt fun longer => ?_
  obtain ⟨more, length⟩ := Nat.exists_eq_add_of_lt longer
  rw [length, Nat.add_assoc, Nat.pow_add, Nat.mul_comm (10 ^ s), ← Nat.mul_assoc] at cross
  have digits := Nat.eq_of_mul_eq_mul_right (pow_ten_pos s) cross
  rw [Nat.pow_succ, ← Nat.mul_assoc] at digits
  rcases short with whole | last
  · omega
  · exact last (by rw [← digits, Nat.mul_mod_left])

/-- The normal form depends on the number only. -/
theorem normalize_congr (h : a.toRat = a'.toRat) : a.normalize = a'.normalize := by
  have same : a.normalize.toRat = a'.normalize.toRat := by
    rw [toRat_normalize, toRat_normalize, h]
  have cross := mantissa_mul_pow same
  have scale : a.normalize.scale = a'.normalize.scale :=
    Nat.le_antisymm (trimmed_scale_le cross.symm (trimZeros_trimmed a.mantissa a.scale))
      (trimmed_scale_le cross (trimZeros_trimmed a'.mantissa a'.scale))
  have mantissa : a.normalize.mantissa = a'.normalize.mantissa := by
    rw [scale] at cross
    exact Nat.eq_of_mul_eq_mul_right (pow_ten_pos _) cross
  have sign : a.normalize.negative = a'.normalize.negative := by
    have zeros := isZero_congr h
    change (a.negative && !a.isZero) = (a'.negative && !a'.isZero)
    rw [← zeros]
    cases zero : a.isZero with
    | true => rw [Bool.not_true, Bool.and_false, Bool.and_false]
    | false => rw [negative_congr h zero]
  generalize a.normalize = n at scale mantissa sign ⊢
  generalize a'.normalize = n' at scale mantissa sign ⊢
  cases n
  cases n'
  simp only [mk.injEq]
  exact ⟨sign, mantissa, scale⟩

/-- Trailing zeros are dropped once and for all. -/
theorem normalize_normalize (d : Decimal) : d.normalize.normalize = d.normalize :=
  normalize_congr (toRat_normalize d)

/-! ## Sum and difference -/

/-- Equal numbers that are aligned to two scales stay equal. -/
theorem alignedTo_mul_pow (h : a.toRat = a'.toRat) {scale scale' : Nat} (le : a.scale ≤ scale)
    (le' : a'.scale ≤ scale') :
    a.alignedTo scale * 10 ^ scale' = a'.alignedTo scale' * 10 ^ scale := by
  have cross := signed_mul_pow h
  obtain ⟨more, rfl⟩ := Nat.exists_eq_add_of_le le
  obtain ⟨more', rfl⟩ := Nat.exists_eq_add_of_le le'
  rw [alignedTo, alignedTo, Nat.add_sub_cancel_left, Nat.add_sub_cancel_left, Int.pow_add,
    Int.pow_add]
  calc a.signed * 10 ^ more * (10 ^ a'.scale * 10 ^ more')
      = a.signed * 10 ^ a'.scale * (10 ^ more * 10 ^ more') := by ac_rfl
    _ = a'.signed * 10 ^ a.scale * (10 ^ more * 10 ^ more') := by rw [cross]
    _ = a'.signed * 10 ^ more' * (10 ^ a.scale * 10 ^ more) := by ac_rfl

/-- The same number over two powers of ten has no digits beyond the smaller one. -/
theorem pow_dvd_mul_pow_min {m m' scale scale' : Nat} (h : m * 10 ^ scale' = m' * 10 ^ scale) :
    10 ^ scale ∣ m * 10 ^ min scale scale' := by
  rcases Nat.le_total scale scale' with le | le
  · rw [Nat.min_eq_left le]
    exact Nat.dvd_mul_left _ _
  · rw [Nat.min_eq_right le, h]
    exact Nat.dvd_mul_left _ _

/-- Equal sums over two powers of ten fit in the same way, each from its own power on. -/
theorem toRat_fit?_sum {sum sum' : Int} {scale scale' : Nat}
    (cross : sum * 10 ^ scale' = sum' * 10 ^ scale) (bound : scale ≤ 28) (bound' : scale' ≤ 28) :
    (fit? (sum < 0) sum.natAbs (10 ^ scale) scale).map toRat =
      (fit? (sum' < 0) sum'.natAbs (10 ^ scale') scale').map toRat := by
  have signs : decide (sum < 0) = decide (sum' < 0) :=
    decide_eq_decide.2 (neg_iff_of_mul_pow cross)
  have magnitudes : sum.natAbs * 10 ^ scale' = sum'.natAbs * 10 ^ scale := by
    have cross := congrArg Int.natAbs cross
    rw [Int.natAbs_mul, Int.natAbs_mul, Int.natAbs_pow, Int.natAbs_pow] at cross
    exact cross
  rw [signs]
  exact toRat_fit?_congr (pow_ten_pos _) (pow_ten_pos _) magnitudes
    (.inr (pow_dvd_mul_pow_min magnitudes)) bound bound'

/-- Sums of equal numbers are equal. -/
theorem toRat_add?_congr (ha : a.toRat = a'.toRat) (hb : b.toRat = b'.toRat) :
    (a.add? b).map toRat = (a'.add? b').map toRat := by
  rw [add?, add?, ← isZero_congr ha, ← isZero_congr hb]
  split
  · rw [Option.map_some, Option.map_some, hb]
  · split
    · rw [Option.map_some, Option.map_some, ha]
    · have cross : (a.alignedTo (max a.scale b.scale) + b.alignedTo (max a.scale b.scale)) *
            10 ^ max a'.scale b'.scale =
          (a'.alignedTo (max a'.scale b'.scale) + b'.alignedTo (max a'.scale b'.scale)) *
            10 ^ max a.scale b.scale := by
        rw [Int.add_mul, Int.add_mul,
          alignedTo_mul_pow ha (Nat.le_max_left _ _) (Nat.le_max_left _ _),
          alignedTo_mul_pow hb (Nat.le_max_right _ _) (Nat.le_max_right _ _)]
      have bound : max a.scale b.scale ≤ 28 := Nat.max_le.2 ⟨a.scale_le, b.scale_le⟩
      have bound' : max a'.scale b'.scale ≤ 28 := Nat.max_le.2 ⟨a'.scale_le, b'.scale_le⟩
      exact toRat_fit?_sum cross bound bound'

/-- Differences of equal numbers are equal. -/
theorem toRat_sub?_congr (ha : a.toRat = a'.toRat) (hb : b.toRat = b'.toRat) :
    (a.sub? b).map toRat = (a'.sub? b').map toRat := by
  have negated : b.neg.toRat = b'.neg.toRat := toRat_neg_congr hb
  rw [sub?, sub?, ← isZero_congr ha, ← isZero_congr hb]
  split
  · split
    · rw [Option.map_some, Option.map_some, hb]
    · rw [Option.map_some, Option.map_some, ha]
  · exact toRat_add?_congr ha negated

/-! ## Product -/

/-- Below 28 places nothing is left of a product of two short mantissas with many places. -/
theorem fit?_short {negative : Bool} {product scale : Nat} (small : product < 2 ^ 64)
    (long : shortProductPlaces < scale) :
    fit? negative product (10 ^ scale) 28 = ofParts? negative 0 28 := by
  have unit : 10 ^ 48 ≤ 10 ^ scale := Nat.pow_le_pow_right (by omega) long
  have below : 2 * (product * 10 ^ 28) < 10 ^ scale := by
    refine Nat.lt_of_lt_of_le ?_ unit
    omega
  have less : product * 10 ^ 28 < 10 ^ scale := by omega
  have rounded : roundHalfEven (product * 10 ^ 28) (10 ^ scale) = 0 := by
    rw [roundHalfEven, Nat.div_eq_of_lt less, Nat.mod_eq_of_lt less, if_pos (.inl below)]
  exact fit?_of_rounded rounded (by omega) (Nat.le_refl 28)

/-- What is fitted carries the sign unless it is zero. -/
theorem negative_of_fit? {negative : Bool} {num den scale : Nat} {d : Decimal}
    (h : fit? negative num den scale = some d) : d.negative = (negative && d.mantissa != 0) := by
  have parts : ∀ {mantissa scale}, ofParts? negative mantissa scale = some d →
      d.negative = (negative && d.mantissa != 0) := by
    intro mantissa scale h
    unfold ofParts? at h
    split at h
    · cases h; rfl
    · cases h
  induction scale with
  | zero => exact parts h
  | succ scale ih =>
    rw [fit?] at h
    split at h
    · next found =>
      cases h
      exact parts found
    · exact ih h

/-- The sign of zero does not change the number. -/
theorem toRat_withSign {negative : Bool} {num den scale : Nat} {d : Decimal}
    (h : fit? negative num den scale = some d) :
    ({ d with negative := negative } : Decimal).toRat = d.toRat := by
  have sign := negative_of_fit? h
  rw [toRat, toRat, signed, signed, sign]
  by_cases zero : d.mantissa = 0
  · simp [zero]
  · rw [bne_iff_ne.2 zero, Bool.and_true]

/-- Parts with the mantissa zero make zero. -/
theorem map_toRat_ofParts?_zero (negative : Bool) {scale : Nat} (le : scale ≤ 28) :
    (ofParts? negative 0 scale).map toRat = some 0 := by
  have inRange : 0 < 2 ^ 96 ∧ scale ≤ 28 := ⟨by omega, le⟩
  rw [ofParts?, dif_pos inRange, Option.map_some, toRat_of_isZero rfl]

/-- The number of a product is that of the fitted quotient. -/
theorem toRat_mul? (a b : Decimal) :
    (a.mul? b).map toRat =
      (fit? (a.negative != b.negative) (a.mantissa * b.mantissa) (10 ^ (a.scale + b.scale))
        (min (a.scale + b.scale) 28)).map toRat := by
  have places : min (a.scale + b.scale) 28 ≤ 28 := Nat.min_le_right _ _
  simp only [mul?]
  split
  · next small =>
    rw [Option.map_some, toRat_of_isZero rfl, eq_comm]
    rw [Bool.or_eq_true, Bool.or_eq_true, Bool.and_eq_true, decide_eq_true_eq,
      decide_eq_true_eq] at small
    rcases small with zero | ⟨short, long⟩
    · have product : a.mantissa * b.mantissa = 0 := by
        rw [Nat.mul_eq_zero]
        exact zero.imp beq_iff_eq.1 beq_iff_eq.1
      have whole : a.mantissa * b.mantissa * 10 ^ min (a.scale + b.scale) 28 =
          0 * 10 ^ (a.scale + b.scale) := by rw [product, Nat.zero_mul, Nat.zero_mul]
      rw [fit?_of_eq_mul (pow_ten_pos _) whole (by omega) places]
      exact map_toRat_ofParts?_zero _ places
    · have onLeft : a.mantissa < 2 ^ 32 := Nat.lt_of_le_of_lt (Nat.le_max_left _ _) short
      have onRight : b.mantissa < 2 ^ 32 := Nat.lt_of_le_of_lt (Nat.le_max_right _ _) short
      have product : a.mantissa * b.mantissa < 2 ^ 64 :=
        Nat.lt_of_lt_of_eq (Nat.mul_lt_mul'' onLeft onRight) (by omega)
      have all : min (a.scale + b.scale) 28 = 28 :=
        Nat.min_eq_right (Nat.le_of_lt (Nat.lt_of_lt_of_le (by decide) long))
      rw [all, fit?_short product long]
      exact map_toRat_ofParts?_zero _ (Nat.le_refl 28)
  · cases found : fit? (a.negative != b.negative) (a.mantissa * b.mantissa)
        (10 ^ (a.scale + b.scale)) (min (a.scale + b.scale) 28) with
    | none => rw [Option.map_none]
    | some d =>
      rw [Option.map_some, Option.map_some, Option.map_some]
      split
      · rfl
      · rw [toRat_withSign found]

/-- Products of equal numbers are equal. -/
theorem toRat_mul?_congr (ha : a.toRat = a'.toRat) (hb : b.toRat = b'.toRat) :
    (a.mul? b).map toRat = (a'.mul? b').map toRat := by
  have cross : a.mantissa * b.mantissa * 10 ^ (a'.scale + b'.scale) =
      a'.mantissa * b'.mantissa * 10 ^ (a.scale + b.scale) := by
    rw [Nat.pow_add, Nat.pow_add]
    calc a.mantissa * b.mantissa * (10 ^ a'.scale * 10 ^ b'.scale)
        = a.mantissa * 10 ^ a'.scale * (b.mantissa * 10 ^ b'.scale) := by ac_rfl
      _ = a'.mantissa * 10 ^ a.scale * (b'.mantissa * 10 ^ b.scale) := by
        rw [mantissa_mul_pow ha, mantissa_mul_pow hb]
      _ = a'.mantissa * b'.mantissa * (10 ^ a.scale * 10 ^ b.scale) := by ac_rfl
  by_cases zero : a.isZero = true ∨ b.isZero = true
  · have zero' : a'.isZero = true ∨ b'.isZero = true := by
      rw [← isZero_congr ha, ← isZero_congr hb]
      exact zero
    rw [mul?, mul?, if_pos (by rcases zero with zero | zero <;> simp [zero]),
      if_pos (by rcases zero' with zero | zero <;> simp [zero])]
  · have nonzero : a.isZero = false ∧ b.isZero = false := by simpa using zero
    rw [toRat_mul?, toRat_mul?, negative_congr ha nonzero.1, negative_congr hb nonzero.2]
    refine toRat_fit?_congr (pow_ten_pos _) (pow_ten_pos _) cross ?_ (Nat.min_le_right _ _)
      (Nat.min_le_right _ _)
    generalize a.scale + b.scale = scale at cross ⊢
    generalize a'.scale + b'.scale = scale' at cross ⊢
    by_cases both : 28 ≤ scale ∧ 28 ≤ scale'
    · left
      omega
    · right
      have start : min (min scale 28) (min scale' 28) = min scale scale' := by omega
      rw [start]
      exact pow_dvd_mul_pow_min cross

/-- Only the sign of what is fitted depends on the sign. -/
theorem toRat_fit?_not (negative : Bool) (num den scale : Nat) :
    (fit? (!negative) num den scale).map toRat =
      (fit? negative num den scale).map fun d => -d.toRat := by
  have parts : ∀ mantissa scale, (ofParts? (!negative) mantissa scale).map toRat =
      (ofParts? negative mantissa scale).map fun d => -d.toRat := by
    intro mantissa scale
    unfold ofParts?
    split
    · rw [Option.map_some, Option.map_some, toRat, toRat, signed, signed]
      by_cases zero : mantissa = 0
      · simp [zero]
      · cases negative <;> simp [zero, Rat.neg_mkRat]
    · rfl
  induction scale with
  | zero => exact parts _ 0
  | succ scale ih =>
    have here := parts (roundHalfEven (num * 10 ^ (scale + 1)) den) (scale + 1)
    rw [fit?, fit?]
    cases found : ofParts? negative (roundHalfEven (num * 10 ^ (scale + 1)) den) (scale + 1) with
    | none =>
      rw [found, Option.map_none, Option.map_eq_none_iff] at here
      rw [here]
      exact ih
    | some d =>
      rw [found, Option.map_some, Option.map_eq_some_iff] at here
      obtain ⟨d', found', value⟩ := here
      rw [found']
      exact congrArg some value

/-- The product has the other sign with one of its factors. -/
theorem toRat_neg_mul? (a b : Decimal) :
    (a.neg.mul? b).map toRat = (a.mul? b).map fun d => -d.toRat := by
  have sign : (a.neg.negative != b.negative) = !(a.negative != b.negative) := by
    rw [neg]
    cases a.negative <;> cases b.negative <;> rfl
  have values : (a.mul? b).map (fun d => -d.toRat) = ((a.mul? b).map toRat).map Neg.neg :=
    (Option.map_map _ _ _).symm
  rw [values, toRat_mul?, toRat_mul?, sign, Option.map_map]
  exact toRat_fit?_not _ _ _ _

/-! ## Quotient -/

/-- Dropping zeros keeps the number. -/
theorem toRat_dropZeros (d : Decimal) (count unit : Nat) :
    (d.dropZeros count unit).toRat = d.toRat := by
  have kept := dropZeros_mul_pow d count unit
  have sign : (d.dropZeros count unit).negative = d.negative := by
    unfold dropZeros
    split <;> rfl
  have shorter : (d.dropZeros count unit).scale ≤ d.scale := by
    unfold dropZeros
    split
    · exact Nat.sub_le _ _
    · exact Nat.le_refl _
  have cross : (d.dropZeros count unit).mantissa * 10 ^ d.scale =
      d.mantissa * 10 ^ (d.dropZeros count unit).scale := by
    conv => rhs; rw [← kept]
    rw [Nat.mul_assoc, ← Nat.pow_add, Nat.sub_add_cancel shorter]
  exact toRat_eq_of_mantissa sign cross

/-- Trimming the trailing zeros of a result keeps its value. -/
theorem toRat_trimmed (d : Decimal) : d.trimmed.toRat = d.toRat := by
  have all : ∀ (runs : List (Nat × Nat)) (d : Decimal),
      (runs.foldl (fun d run => d.dropZeros run.1 run.2) d).toRat = d.toRat := by
    intro runs
    induction runs with
    | nil => exact fun _ => rfl
    | cons run runs ih =>
      intro d
      rw [List.foldl_cons, ih, toRat_dropZeros]
  exact all _ d

/-- Long division ends at 28 places or where no remainder is left. -/
theorem dvd_quotientPlaces (a b : Decimal) :
    a.quotientPlaces b = 28 ∨ b.mantissa * 10 ^ a.scale ∣
      a.mantissa * 10 ^ b.scale * 10 ^ a.quotientPlaces b := by
  unfold quotientPlaces
  split
  · next runs found =>
    have noRemainder := List.find?_some found
    rw [decide_eq_true_eq] at noRemainder
    by_cases most : 28 ≤ a.scale + 9 * runs - b.scale
    · exact .inl (Nat.min_eq_right most)
    · right
      rw [Nat.min_eq_left (by omega)]
      have long : a.scale + 9 * runs ≤ b.scale + (a.scale + 9 * runs - b.scale) := by omega
      obtain ⟨more, places⟩ := Nat.exists_eq_add_of_le long
      rw [Nat.mul_assoc, ← Nat.pow_add, places, Nat.pow_add, Nat.pow_add]
      obtain ⟨quotient, whole⟩ := Nat.dvd_of_mod_eq_zero noRemainder
      refine ⟨quotient * 10 ^ more, ?_⟩
      calc a.mantissa * (10 ^ a.scale * 10 ^ (9 * runs) * 10 ^ more)
          = a.mantissa * 10 ^ (9 * runs) * (10 ^ a.scale * 10 ^ more) := by ac_rfl
        _ = b.mantissa * quotient * (10 ^ a.scale * 10 ^ more) := by rw [whole]
        _ = b.mantissa * 10 ^ a.scale * (quotient * 10 ^ more) := by ac_rfl
  · exact .inl rfl

/-- A quotient has at most 28 places. -/
theorem quotientPlaces_le (a b : Decimal) : a.quotientPlaces b ≤ 28 := by
  unfold quotientPlaces
  split
  · exact Nat.min_le_right _ _
  · exact Nat.le_refl _

/-- Equal quotients have the same digits. -/
theorem dvd_of_ratio {num den num' den' unit : Nat} (positive : 0 < den')
    (same : num * den' = num' * den) (whole : den' ∣ num' * unit) : den ∣ num * unit := by
  obtain ⟨quotient, multiple⟩ := whole
  refine ⟨quotient, Nat.eq_of_mul_eq_mul_right positive ?_⟩
  calc num * unit * den' = num * den' * unit := by ac_rfl
    _ = num' * den * unit := by rw [same]
    _ = num' * unit * den := by ac_rfl
    _ = den' * quotient * den := by rw [multiple]
    _ = den * quotient * den' := by ac_rfl

/-- The number of a quotient is that of the fitted one. -/
theorem toRat_div? (ha : a.isZero = false) (hb : b.isZero = false) :
    (a.div? b).map toRat =
      (fit? (a.negative != b.negative) (a.mantissa * 10 ^ b.scale) (b.mantissa * 10 ^ a.scale)
        (a.quotientPlaces b)).map toRat := by
  simp only [div?, ha, hb, Bool.false_eq_true, if_false]
  split
  · rfl
  · have kept : toRat ∘ trimmed = toRat := by
      funext d
      rw [Function.comp_apply, toRat_trimmed]
    rw [Option.map_map, kept]

/-- Quotients of equal numbers are equal. -/
theorem toRat_div?_congr (ha : a.toRat = a'.toRat) (hb : b.toRat = b'.toRat) :
    (a.div? b).map toRat = (a'.div? b').map toRat := by
  have zeros := isZero_congr ha
  have zeros' := isZero_congr hb
  cases divisor : b.isZero with
  | true => rw [div?_zero divisor, div?_zero (zeros' ▸ divisor)]
  | false =>
    cases dividend : a.isZero with
    | true =>
      rw [div?, div?, ← zeros, ← zeros', divisor, dividend]
      rfl
    | false =>
      have positive : 0 < b.mantissa * 10 ^ a.scale :=
        Nat.mul_pos (Nat.pos_of_ne_zero (mantissa_ne_zero divisor)) (pow_ten_pos _)
      have positive' : 0 < b'.mantissa * 10 ^ a'.scale :=
        Nat.mul_pos (Nat.pos_of_ne_zero (mantissa_ne_zero (zeros' ▸ divisor))) (pow_ten_pos _)
      have cross : a.mantissa * 10 ^ b.scale * (b'.mantissa * 10 ^ a'.scale) =
          a'.mantissa * 10 ^ b'.scale * (b.mantissa * 10 ^ a.scale) := by
        calc a.mantissa * 10 ^ b.scale * (b'.mantissa * 10 ^ a'.scale)
            = a.mantissa * 10 ^ a'.scale * (b'.mantissa * 10 ^ b.scale) := by ac_rfl
          _ = a'.mantissa * 10 ^ a.scale * (b.mantissa * 10 ^ b'.scale) := by
            rw [mantissa_mul_pow ha, mantissa_mul_pow hb]
          _ = a'.mantissa * 10 ^ b'.scale * (b.mantissa * 10 ^ a.scale) := by ac_rfl
      rw [toRat_div? dividend divisor, toRat_div? (zeros ▸ dividend) (zeros' ▸ divisor),
        negative_congr ha dividend, negative_congr hb divisor]
      refine toRat_fit?_congr positive positive' cross ?_ (quotientPlaces_le a b)
        (quotientPlaces_le a' b')
      rcases Nat.lt_trichotomy (a.quotientPlaces b) (a'.quotientPlaces b') with less | same | more
      · right
        rw [Nat.min_eq_left (Nat.le_of_lt less)]
        have bound := quotientPlaces_le a' b'
        exact (dvd_quotientPlaces a b).resolve_left (by omega)
      · exact .inl same
      · right
        rw [Nat.min_eq_right (Nat.le_of_lt more)]
        have bound := quotientPlaces_le a b
        exact dvd_of_ratio positive' cross
          ((dvd_quotientPlaces a' b').resolve_left (by omega))

/-! ## Comparisons -/

/-- Two integers in the ratio of two others compare as these do. -/
theorem compare_of_ratio {x y x' y' unit unit' : Int} (positive : 0 < unit) (positive' : 0 < unit')
    (hx : x * unit' = x' * unit) (hy : y * unit' = y' * unit) :
    Ord.compare x y = Ord.compare x' y' := by
  have less : x < y ↔ x' < y' := by
    rw [← Int.mul_lt_mul_right positive', hx, hy, Int.mul_lt_mul_right positive]
  have equal : x = y ↔ x' = y' := by
    have scaled : x * unit' = y * unit' ↔ x' * unit = y' * unit := by rw [hx, hy]
    rwa [Int.mul_eq_mul_right_iff (by omega), Int.mul_eq_mul_right_iff (by omega)] at scaled
  change compareOfLessAndEq x y = compareOfLessAndEq x' y'
  rw [compareOfLessAndEq, compareOfLessAndEq]
  simp only [less, equal]

/-- Comparison depends on the values alone. -/
theorem compare_congr (ha : a.toRat = a'.toRat) (hb : b.toRat = b'.toRat) :
    a.compare b = a'.compare b' := by
  have unit : (0 : Int) < 10 ^ a.scale * 10 ^ b.scale :=
    Int.mul_pos (Int.pow_pos (by omega)) (Int.pow_pos (by omega))
  have unit' : (0 : Int) < 10 ^ a'.scale * 10 ^ b'.scale :=
    Int.mul_pos (Int.pow_pos (by omega)) (Int.pow_pos (by omega))
  refine compare_of_ratio unit unit' ?_ ?_
  · calc a.signed * 10 ^ b.scale * (10 ^ a'.scale * 10 ^ b'.scale)
        = a.signed * 10 ^ a'.scale * (10 ^ b.scale * 10 ^ b'.scale) := by ac_rfl
      _ = a'.signed * 10 ^ a.scale * (10 ^ b.scale * 10 ^ b'.scale) := by rw [signed_mul_pow ha]
      _ = a'.signed * 10 ^ b'.scale * (10 ^ a.scale * 10 ^ b.scale) := by ac_rfl
  · calc b.signed * 10 ^ a.scale * (10 ^ a'.scale * 10 ^ b'.scale)
        = b.signed * 10 ^ b'.scale * (10 ^ a.scale * 10 ^ a'.scale) := by ac_rfl
      _ = b'.signed * 10 ^ b.scale * (10 ^ a.scale * 10 ^ a'.scale) := by rw [signed_mul_pow hb]
      _ = b'.signed * 10 ^ a'.scale * (10 ^ a.scale * 10 ^ b.scale) := by ac_rfl

/-- The test for equality depends on the values alone. -/
theorem same_congr (ha : a.toRat = a'.toRat) (hb : b.toRat = b'.toRat) :
    a.same b = a'.same b' := by
  rw [same, same, compare_congr ha hb]

/-- The test for less depends on the values alone. -/
theorem lt_congr (ha : a.toRat = a'.toRat) (hb : b.toRat = b'.toRat) : a.lt b = a'.lt b' := by
  rw [lt, lt, compare_congr ha hb]

/-- The test for at most depends on the values alone. -/
theorem le_congr (ha : a.toRat = a'.toRat) (hb : b.toRat = b'.toRat) : a.le b = a'.le b' := by
  rw [le, le, compare_congr ha hb]

/-! ## Integers -/

/-- Whether a number is an integer depends on its value alone. -/
theorem isInteger_congr (h : a.toRat = a'.toRat) : a.isInteger = a'.isInteger := by
  have cross := mantissa_mul_pow h
  have divides : 10 ^ a.scale ∣ a.mantissa ↔ 10 ^ a'.scale ∣ a'.mantissa := by
    rw [← Nat.mul_dvd_mul_iff_right (pow_ten_pos a'.scale), cross,
      Nat.mul_comm (10 ^ a.scale) (10 ^ a'.scale), Nat.mul_dvd_mul_iff_right (pow_ten_pos a.scale)]
  rw [isInteger, isInteger, Bool.eq_iff_iff, beq_iff_eq, beq_iff_eq, ← Nat.dvd_iff_mod_eq_zero,
    ← Nat.dvd_iff_mod_eq_zero, divides]

/-- The integer part depends on the value alone. -/
theorem truncate_congr (h : a.toRat = a'.toRat) : a.truncate = a'.truncate := by
  have cross := mantissa_mul_pow h
  have whole : a.mantissa / 10 ^ a.scale = a'.mantissa / 10 ^ a'.scale := by
    rw [← Nat.mul_div_mul_right a.mantissa (10 ^ a.scale) (pow_ten_pos a'.scale), cross,
      Nat.mul_comm (10 ^ a.scale) (10 ^ a'.scale),
      Nat.mul_div_mul_right a'.mantissa (10 ^ a'.scale) (pow_ten_pos a.scale)]
  cases zero : a.isZero with
  | true =>
    have noMantissa : a.mantissa = 0 := beq_iff_eq.1 zero
    have noWhole : a'.mantissa / 10 ^ a'.scale = 0 := by rw [← whole, noMantissa, Nat.zero_div]
    rw [truncate, truncate, whole, noWhole]
    cases a.negative <;> cases a'.negative <;> rfl
  | false => rw [truncate, truncate, whole, negative_congr h zero]

/-! ## Powers -/

/-- Two results with the same number are missing together. -/
theorem cases_of_map_toRat {x y : Option Decimal} (h : x.map toRat = y.map toRat) :
    (x = none ∧ y = none) ∨ ∃ c d, x = some c ∧ y = some d ∧ c.toRat = d.toRat := by
  cases x with
  | none =>
    cases y with
    | none => exact .inl ⟨rfl, rfl⟩
    | some d => cases h
  | some c =>
    cases y with
    | none => cases h
    | some d => exact .inr ⟨c, d, rfl, rfl, Option.some.inj h⟩

/-- Powers by squaring of equal numbers are equal. -/
theorem toRat_binaryPower_congr (n : Nat) (ha : a.toRat = a'.toRat) (hb : b.toRat = b'.toRat) :
    (binaryPower mul? a b n).map toRat = (binaryPower mul? a' b' n).map toRat := by
  induction n using Nat.strongRecOn generalizing a a' b b' with
  | _ n ih =>
    have products : (if n % 2 = 1 then b.mul? a else some b).map toRat =
        (if n % 2 = 1 then b'.mul? a' else some b').map toRat := by
      split
      · exact toRat_mul?_congr hb ha
      · rw [Option.map_some, Option.map_some, hb]
    rw [binaryPower, binaryPower]
    rcases cases_of_map_toRat products with ⟨missing, missing'⟩ | ⟨c, c', found, found', hc⟩
    · rw [missing, missing']
    · rw [found, found']
      dsimp only
      by_cases last : n / 2 = 0
      · rw [if_pos last, if_pos last, Option.map_some, Option.map_some, hc]
      · have smaller : n / 2 < n := by omega
        rw [if_neg last, if_neg last]
        rcases cases_of_map_toRat (toRat_mul?_congr ha ha) with
          ⟨missing, missing'⟩ | ⟨s, s', square, square', hs⟩
        · rw [missing, missing']
        · rw [square, square']
          exact ih (n / 2) smaller hs hc

/-- Powers of equal numbers with an exponent below 1024 are equal. -/
theorem toRat_pow?_congr {n : Nat} (small : n < 1024) (ha : a.toRat = a'.toRat) :
    (a.pow? n).map toRat = (a'.pow? n).map toRat := by
  rw [pow?, pow?, ← isZero_congr ha, ← same_congr ha (Eq.refl one.toRat), if_pos small,
    if_pos small]
  split
  · rfl
  · split
    · rfl
    · split
      · rfl
      · split
        · rw [Option.map_some, Option.map_some, ha]
        · split
          · exact toRat_mul?_congr ha ha
          · have normalized : toRat ∘ normalize = toRat := funext toRat_normalize
            rw [Option.map_map, Option.map_map, normalized]
            exact toRat_binaryPower_congr n ha rfl

end Reckon.Decimal
