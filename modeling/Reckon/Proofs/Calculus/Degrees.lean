import Reckon.Calculus.Degree
import Reckon.Proofs.Decimal.Exact

/-!
# The degree of a tree

When a tree has a degree and which: the whole exponents are the natural numbers within the count,
and the degree of an operation comes from those of its operands. A bound on the degree is kept by
every way of putting trees together that the degree is defined for.
-/

namespace Reckon

namespace Decimal

/-- A number that is a natural one is an integer without a sign. -/
theorem toRat_eq_natCast_iff {d : Decimal} {k : Nat} (plain : d.negative = false) :
    d.toRat = k ↔ d.isInteger = true ∧ d.truncate.toNat = k := by
  have unit : (10 : ℚ) ^ d.scale ≠ 0 := by positivity
  have value : d.toRat = k ↔ d.mantissa = k * 10 ^ d.scale := by
    rw [toRat_eq_div, signed, plain, if_neg Bool.false_ne_true, div_eq_iff unit]
    exact_mod_cast Iff.rfl
  have whole : d.truncate.toNat = d.mantissa / 10 ^ d.scale := by
    rw [truncate, plain, if_neg Bool.false_ne_true, Int.toNat_natCast]
  rw [value, whole, isInteger, beq_iff_eq]
  constructor
  · intro multiple
    rw [multiple]
    exact ⟨Nat.mul_mod_left k _, Nat.mul_div_cancel k (pow_ten_pos _)⟩
  · rintro ⟨integer, rfl⟩
    exact (Nat.div_mul_cancel (Nat.dvd_of_mod_eq_zero integer)).symm

/-- In normal form, only numbers below zero carry a sign. -/
theorem negative_normalize_eq_false {d : Decimal} (h : 0 ≤ d.toRat) :
    d.normalize.negative = false := by
  rw [Bool.eq_false_iff]
  intro negative
  obtain ⟨sign, nonzero⟩ := Bool.and_eq_true_iff.1 negative
  have below : d.signed < 0 := (negative_iff (Bool.not_eq_true' _ ▸ nonzero)).1 sign
  have unit : (0 : ℚ) < 10 ^ d.scale := by positivity
  have negative : d.toRat < 0 := by
    rw [toRat_eq_div]
    exact div_neg_of_neg_of_pos (by exact_mod_cast below) unit
  exact absurd h (not_le.2 negative)

end Decimal

namespace Expr

/-- A degree within the count is the number itself, if it has 32 bits. -/
theorem degreeWithin_eq_some_iff {m n : Nat} : degreeWithin m = some n ↔ m = n ∧ n < 2 ^ 32 := by
  rw [degreeWithin]
  split
  · next within =>
    rw [Option.some.injEq]
    exact ⟨fun same => ⟨same, same ▸ within⟩, And.left⟩
  · next beyond =>
    exact ⟨nofun, fun ⟨same, within⟩ => absurd (same ▸ within) beyond⟩

/-- The whole exponents are the natural numbers within the count that carry no sign. -/
theorem wholeExponent?_eq_some_iff {exponent : Decimal} {k : Nat} :
    wholeExponent? exponent = some k ↔
      exponent.negative = false ∧ exponent.toRat = k ∧ k < 2 ^ 32 := by
  rw [wholeExponent?]
  cases sign : exponent.negative with
  | true => simp
  | false =>
    rw [Decimal.toRat_eq_natCast_iff sign, Bool.not_false, Bool.and_true]
    split
    · next integer =>
      rw [degreeWithin_eq_some_iff]
      exact ⟨fun ⟨same, within⟩ => ⟨rfl, ⟨integer, same⟩, within⟩,
        fun ⟨_, ⟨_, same⟩, within⟩ => ⟨same, within⟩⟩
    · next fraction => exact ⟨nofun, fun h => absurd h.2.1.1 fraction⟩

/-- A natural number in normal form is a whole exponent. -/
theorem wholeExponent?_normalize {d : Decimal} {k : Nat} (value : d.toRat = k)
    (within : k < 2 ^ 32) : wholeExponent? d.normalize = some k := by
  rw [wholeExponent?_eq_some_iff, Decimal.toRat_normalize]
  refine ⟨Decimal.negative_normalize_eq_false ?_, value, within⟩
  rw [value]
  exact Nat.cast_nonneg k

/-! ## Degrees of operations -/

section Degrees

variable {v : String} {left right e : Expr} {m n k : Nat}

/-- What the degree of an operation is made of. -/
inductive BinaryDegree (v : String) (left right : Expr) (n : Nat) : Operator → Prop where
  | add {a b : Nat} : left.degree? v = some a → right.degree? v = some b → n = max a b →
      BinaryDegree v left right n .add
  | subtract {a b : Nat} : left.degree? v = some a → right.degree? v = some b → n = max a b →
      BinaryDegree v left right n .subtract
  | multiply {a b : Nat} : left.degree? v = some a → right.degree? v = some b → n = a + b →
      n < 2 ^ 32 → BinaryDegree v left right n .multiply
  | divide : left.degree? v = some n → right.degree? v = some 0 →
      BinaryDegree v left right n .divide
  | constantPower : left.mentions v = false → right.mentions v = false → n = 0 →
      BinaryDegree v left right n .power
  | power {exponent : Decimal} {a k : Nat} : right = .number exponent →
      left.degree? v = some a → wholeExponent? exponent = some k → n = a * k → n < 2 ^ 32 →
      BinaryDegree v left right n .power

/-- All that the degree of an operation can come from. -/
theorem binaryDegree_of_degree? {op : Operator}
    (h : (Expr.binary op left right).degree? v = some n) : BinaryDegree v left right n op := by
  cases op with
  | add =>
    rw [degree?] at h
    split at h
    · next a b first second => exact .add first second (Option.some.inj h).symm
    · cases h
  | subtract =>
    rw [degree?] at h
    split at h
    · next a b first second => exact .subtract first second (Option.some.inj h).symm
    · cases h
  | multiply =>
    rw [degree?] at h
    split at h
    · next a b first second =>
      obtain ⟨same, within⟩ := degreeWithin_eq_some_iff.1 h
      exact .multiply first second same.symm within
    · cases h
  | divide =>
    rw [degree?] at h
    split at h
    · next constant => exact .divide h constant
    · cases h
  | power =>
    unfold degree? at h
    dsimp only at h
    split at h
    · next constant =>
      rw [Bool.and_eq_true, Bool.not_eq_true', Bool.not_eq_true'] at constant
      exact .constantPower constant.2 constant.1 (Option.some.inj h).symm
    · split at h
      · next exponent a first _ =>
        obtain ⟨k, whole, within⟩ := Option.bind_eq_some_iff.1 h
        obtain ⟨same, within⟩ := degreeWithin_eq_some_iff.1 within
        exact .power rfl first whole same.symm within
      · cases h
  | _ => cases h

/-- Degrees are within the count. -/
theorem degree?_lt : ∀ {e : Expr} {n : Nat}, e.degree? v = some n → n < 2 ^ 32
  | .number _, _, h => by
    cases h
    decide
  | .variable _ none, _, h => by
    rw [degree?] at h
    split at h <;> cases h <;> decide
  | .variable _ (some _), _, h => by
    rw [degree?] at h
    split at h
    · cases h
      decide
    · split at h
      · cases h
        decide
      · exact (wholeExponent?_eq_some_iff.1 h).2.2
  | .signed _ operand, _, h => degree?_lt (e := operand) h
  | .binary _ left right, _, h => by
    cases binaryDegree_of_degree? h with
    | add first second same =>
      rw [same]
      exact Nat.max_lt.2 ⟨degree?_lt first, degree?_lt second⟩
    | subtract first second same =>
      rw [same]
      exact Nat.max_lt.2 ⟨degree?_lt first, degree?_lt second⟩
    | multiply _ _ _ within => exact within
    | divide first _ => exact degree?_lt first
    | constantPower _ _ same =>
      rw [same]
      decide
    | power _ _ _ _ within => exact within
  | .call _ _, _, h => by
    rw [degree?] at h
    split at h
    · cases h
    · cases h
      decide
  | .vector _, _, h => by cases h
  | .matrix _, _, h => by cases h
  | .definition _ _ _, _, h => by cases h

/-! ## Bounds -/

/-- The tree has a degree, and it is at most `n`. -/
def DegreeAtMost (v : String) (n : Nat) (e : Expr) : Prop :=
  ∃ m, e.degree? v = some m ∧ m ≤ n

/-- A tree with a degree is of that degree at most. -/
theorem degreeAtMost_of_degree? (h : e.degree? v = some n) : DegreeAtMost v n e :=
  ⟨n, h, Nat.le_refl n⟩

/-- A number is of every degree at most. -/
theorem degreeAtMost_number (v : String) (n : Nat) (value : Decimal) :
    DegreeAtMost v n (.number value) :=
  ⟨0, rfl, Nat.zero_le n⟩

/-- A variable is of degree one at most. -/
theorem degreeAtMost_plain (v name : String) : DegreeAtMost v 1 (plain name) := by
  by_cases own : name = v
  · exact ⟨1, by rw [plain, degree?, if_neg (not_not.2 own)], Nat.le_refl 1⟩
  · exact ⟨0, by rw [plain, degree?, if_pos own], Nat.zero_le 1⟩

namespace DegreeAtMost

/-- A bound on the degree may be raised. -/
theorem mono (h : DegreeAtMost v m e) (le : m ≤ n) : DegreeAtMost v n e :=
  h.imp fun _ degree => ⟨degree.1, Nat.le_trans degree.2 le⟩

/-- A sign keeps a bound on the degree. -/
theorem signed (h : DegreeAtMost v n e) (sign : Sign) : DegreeAtMost v n (.signed sign e) :=
  h

/-- A sum keeps the bound of both operands. -/
theorem add (hl : DegreeAtMost v n left) (hr : DegreeAtMost v n right) :
    DegreeAtMost v n (.binary .add left right) := by
  obtain ⟨a, first, le⟩ := hl
  obtain ⟨b, second, le'⟩ := hr
  exact ⟨max a b, by rw [degree?, first, second], Nat.max_le.2 ⟨le, le'⟩⟩

/-- A difference keeps the bound of both operands. -/
theorem subtract (hl : DegreeAtMost v n left) (hr : DegreeAtMost v n right) :
    DegreeAtMost v n (.binary .subtract left right) := by
  obtain ⟨a, first, le⟩ := hl
  obtain ⟨b, second, le'⟩ := hr
  exact ⟨max a b, by rw [degree?, first, second], Nat.max_le.2 ⟨le, le'⟩⟩

/-- A product has the sum of the bounds as its bound. -/
theorem multiply (hl : DegreeAtMost v m left) (hr : DegreeAtMost v n right)
    (within : m + n < 2 ^ 32) : DegreeAtMost v (m + n) (.binary .multiply left right) := by
  obtain ⟨a, first, le⟩ := hl
  obtain ⟨b, second, le'⟩ := hr
  have sum : a + b ≤ m + n := Nat.add_le_add le le'
  refine ⟨a + b, ?_, sum⟩
  rw [degree?, first, second]
  exact degreeWithin_eq_some_iff.2 ⟨rfl, Nat.lt_of_le_of_lt sum within⟩

/-- A number in front of a product does not count. -/
theorem multiply_number (h : DegreeAtMost v n e) (c : Decimal) :
    DegreeAtMost v n (.binary .multiply (.number c) e) := by
  obtain ⟨a, degree, le⟩ := h
  have product := (degreeAtMost_number v 0 c).multiply (degreeAtMost_of_degree? degree)
    (by rw [Nat.zero_add]; exact degree?_lt degree)
  exact product.mono (by rw [Nat.zero_add]; exact le)

/-- A quotient by a constant keeps the bound of the dividend. -/
theorem divide (hl : DegreeAtMost v n left) (hr : DegreeAtMost v 0 right) :
    DegreeAtMost v n (.binary .divide left right) := by
  obtain ⟨a, first, le⟩ := hl
  obtain ⟨b, second, le'⟩ := hr
  obtain rfl := Nat.le_zero.1 le'
  refine ⟨a, ?_, le⟩
  rw [degree?, second, first]
  rfl

/-- A power with a whole exponent has so many times the bound of its base. -/
theorem power (h : DegreeAtMost v n e) {exponent : Decimal}
    (whole : wholeExponent? exponent = some k) (within : n * k < 2 ^ 32) :
    DegreeAtMost v (n * k) (.binary .power e (.number exponent)) := by
  obtain ⟨a, degree, le⟩ := h
  have product : a * k ≤ n * k := Nat.mul_le_mul_right k le
  unfold DegreeAtMost degree?
  dsimp only
  split
  · exact ⟨0, rfl, Nat.zero_le _⟩
  · refine ⟨a * k, ?_, product⟩
    simp only [degree, whole, Option.bind_some]
    exact degreeWithin_eq_some_iff.2 ⟨rfl, Nat.lt_of_le_of_lt product within⟩

end DegreeAtMost

end Degrees

end Expr

end Reckon
