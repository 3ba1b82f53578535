import Reckon.Proofs.Decimal.Digits
import Reckon.Proofs.Decimal.Places

/-!
# Which literals have room

A literal is refused if even its integer part has no room, or if the first digit behind a greatest
integer part rounds it up. Both together say that its value is half a unit below `2 ^ 96` or above
that; how many digits follow does not matter. Every other literal is read as a decimal that is off
by half a unit of its last place at most.
-/

namespace Reckon

namespace Decimal

/-- A digit is worth at most nine. -/
theorem digitValue_le {c : Char} (digit : c.isDigit = true) : digitValue c ≤ 9 := by
  simp only [Char.isDigit, Bool.and_eq_true, decide_eq_true_eq, ge_iff_le,
    UInt32.le_iff_toNat_le] at digit
  have range : 48 ≤ c.toNat ∧ c.toNat ≤ 57 := digit
  have zero : '0'.toNat = 48 := rfl
  rw [digitValue, zero]
  omega

/-- Digits behind a number move it by as many places, and stay below the next unit. -/
theorem ofDigitChars_bounds {cs : List Char} (digits : ∀ c ∈ cs, c.isDigit = true) (start : Nat) :
    start * 10 ^ cs.length ≤ Nat.ofDigitChars 10 cs start ∧
      Nat.ofDigitChars 10 cs start < (start + 1) * 10 ^ cs.length := by
  induction cs generalizing start with
  | nil => exact ⟨by simp, by simp⟩
  | cons c cs ih =>
    have le := digitValue_le (digits c List.mem_cons_self)
    obtain ⟨low, high⟩ :=
      ih (fun d mem => digits d (List.mem_cons_of_mem c mem)) (10 * start + digitValue c)
    have unit : 10 ^ (c :: cs).length = 10 * 10 ^ cs.length := by
      rw [List.length_cons, Nat.pow_succ, Nat.mul_comm]
    have front : start * 10 * 10 ^ cs.length ≤ (10 * start + digitValue c) * 10 ^ cs.length :=
      Nat.mul_le_mul_right _ (by omega)
    have back : (10 * start + digitValue c + 1) * 10 ^ cs.length ≤
        (start + 1) * 10 * 10 ^ cs.length :=
      Nat.mul_le_mul_right _ (by omega)
    rw [Nat.ofDigitChars_cons, unit, ← Nat.mul_assoc, ← Nat.mul_assoc]
    exact ⟨Nat.le_trans front low, Nat.lt_of_lt_of_le high back⟩

/-- The last digit taken has no room only where it rounds the greatest integer up. -/
theorem roundLast_eq_none_iff {mantissa scale digit : Nat} (small : mantissa < 2 ^ 96) :
    roundLast mantissa scale digit = none ↔
      scale = 0 ∧ mantissa = 2 ^ 96 - 1 ∧ 5 ≤ digit := by
  unfold roundLast
  split
  · next low => exact ⟨by simp, fun h => absurd low (by omega)⟩
  · split
    · next room => exact ⟨by simp, fun h => absurd room (by omega)⟩
    · split
      · next integer => exact ⟨fun _ => ⟨integer, by omega, by omega⟩, fun _ => rfl⟩
      · next fraction => exact ⟨by simp, fun h => absurd h.1 fraction⟩

/-- Digits behind the point have no room only behind the greatest integer, and there only if they
make half a unit. -/
theorem readFraction_eq_none_iff {cs : List Char} (digits : ∀ c ∈ cs, c.isDigit = true)
    {mantissa scale : Nat} (small : mantissa < 2 ^ 96) :
    readFraction mantissa scale cs = none ↔
      scale = 0 ∧ (2 ^ 97 - 1) * 10 ^ cs.length ≤ 2 * Nat.ofDigitChars 10 cs mantissa := by
  cases cs with
  | nil =>
    have value : Nat.ofDigitChars 10 [] mantissa = mantissa := rfl
    rw [readFraction, value]
    refine ⟨by simp, fun h => ?_⟩
    simp only [List.length_nil, Nat.pow_zero] at h
    omega
  | cons c cs =>
    have le := digitValue_le (digits c List.mem_cons_self)
    have digits' : ∀ d ∈ cs, d.isDigit = true := fun d mem => digits d (List.mem_cons_of_mem c mem)
    obtain ⟨low, high⟩ := ofDigitChars_bounds digits' (10 * mantissa + digitValue c)
    have positive : 0 < 10 ^ cs.length := Nat.pow_pos (by decide)
    have value : Nat.ofDigitChars 10 (c :: cs) mantissa =
        Nat.ofDigitChars 10 cs (10 * mantissa + digitValue c) := Nat.ofDigitChars_cons
    have next : 10 ^ (c :: cs).length = 10 * 10 ^ cs.length := by
      rw [List.length_cons, Nat.pow_succ, Nat.mul_comm]
    have unit : (2 ^ 97 - 1) * 10 ^ (c :: cs).length = (2 ^ 97 - 1) * 10 * 10 ^ cs.length := by
      rw [next, Nat.mul_assoc]
    -- In units of the last place of `cs`, only the digit at the front decides.
    have half : (2 ^ 97 - 1) * 10 ^ (c :: cs).length ≤ 2 * Nat.ofDigitChars 10 (c :: cs) mantissa ↔
        (2 ^ 97 - 1) * 10 ≤ 2 * (10 * mantissa + digitValue c) := by
      rw [unit, value]
      constructor
      · intro reached
        have above : (2 ^ 97 - 1) * 10 * 10 ^ cs.length <
            2 * (10 * mantissa + digitValue c + 1) * 10 ^ cs.length := by
          rw [Nat.mul_assoc 2]
          omega
        have := Nat.lt_of_mul_lt_mul_right above
        omega
      · intro reached
        have scaled := Nat.mul_le_mul_right (10 ^ cs.length) reached
        rw [Nat.mul_assoc 2] at scaled
        omega
    rw [readFraction, half]
    split
    · next full =>
      rw [roundLast_eq_none_iff small]
      constructor
      · rintro ⟨rfl, greatest, up⟩
        exact ⟨rfl, by omega⟩
      · rintro ⟨rfl, reached⟩
        exact ⟨rfl, by omega, by omega⟩
    · next room =>
      have fits : 10 * mantissa + digitValue c < 2 ^ 96 := by omega
      rw [readFraction_eq_none_iff digits' fits]
      constructor
      · rintro ⟨impossible, -⟩
        omega
      · rintro ⟨-, reached⟩
        omega

/-- What is read behind the point is a mantissa with its scale. -/
theorem bounds_of_readFraction {cs : List Char} {mantissa scale mantissa' scale' : Nat}
    (small : mantissa < 2 ^ 96) (le : scale ≤ 28)
    (h : readFraction mantissa scale cs = some (mantissa', scale')) :
    mantissa' < 2 ^ 96 ∧ scale' ≤ 28 := by
  induction cs generalizing mantissa scale with
  | nil =>
    cases h
    exact ⟨small, le⟩
  | cons c cs ih =>
    rw [readFraction] at h
    split at h
    · unfold roundLast at h
      split at h
      · cases h
        exact ⟨small, le⟩
      · split at h
        · next room =>
          cases h
          exact ⟨room, le⟩
        · split at h
          · cases h
          · cases h
            omega
    · next room => exact ih (by omega) (by omega) h

/-- Rounded in the last digit taken, a mantissa is the nearest one in the unit of its last place. -/
theorem near_of_roundLast {mantissa scale digit kept places value n : Nat}
    (small : mantissa < 2 ^ 96) (le : digit ≤ 9) (low : (10 * mantissa + digit) * 10 ^ n ≤ value)
    (high : value < (10 * mantissa + digit + 1) * 10 ^ n)
    (h : roundLast mantissa scale digit = some (kept, places)) :
    ∃ more, scale + (n + 1) = places + more ∧
      2 * value ≤ 2 * (kept * 10 ^ more) + 10 ^ more ∧
      2 * (kept * 10 ^ more) ≤ 2 * value + 10 ^ more := by
  have ten : 10 ^ (n + 1) = 10 * 10 ^ n := by rw [Nat.pow_succ, Nat.mul_comm]
  have hundred : 10 ^ (n + 2) = 100 * 10 ^ n := by rw [Nat.pow_succ, ten]; omega
  have unit : 0 < 10 ^ n := Nat.pow_pos (by decide)
  rw [Nat.add_mul, Nat.mul_assoc] at low
  rw [Nat.add_mul, Nat.add_mul, Nat.mul_assoc, Nat.one_mul] at high
  unfold roundLast at h
  split at h
  · next down =>
    cases h
    have digits : digit * 10 ^ n ≤ 4 * 10 ^ n := Nat.mul_le_mul_right _ (by omega)
    refine ⟨n + 1, rfl, ?_, ?_⟩ <;> rw [ten, Nat.mul_left_comm mantissa] <;> omega
  · next up =>
    have five : 5 * 10 ^ n ≤ digit * 10 ^ n := Nat.mul_le_mul_right _ (by omega)
    have nine : digit * 10 ^ n ≤ 9 * 10 ^ n := Nat.mul_le_mul_right _ le
    split at h
    · cases h
      refine ⟨n + 1, rfl, ?_, ?_⟩ <;>
        rw [ten, Nat.mul_left_comm (mantissa + 1), Nat.add_mul, Nat.one_mul] <;> omega
    · next full =>
      obtain rfl : mantissa = 2 ^ 96 - 1 := by omega
      split at h
      · cases h
      · cases h
        refine ⟨n + 2, by omega, ?_, ?_⟩ <;> rw [hundred] <;> omega

/-- The mantissa that is read behind the point is the nearest one in the unit of its last place. -/
theorem near_of_readFraction {cs : List Char} (digits : ∀ c ∈ cs, c.isDigit = true)
    {mantissa scale kept places : Nat} (small : mantissa < 2 ^ 96)
    (h : readFraction mantissa scale cs = some (kept, places)) :
    ∃ more, scale + cs.length = places + more ∧
      2 * Nat.ofDigitChars 10 cs mantissa ≤ 2 * (kept * 10 ^ more) + 10 ^ more ∧
      2 * (kept * 10 ^ more) ≤ 2 * Nat.ofDigitChars 10 cs mantissa + 10 ^ more := by
  induction cs generalizing mantissa scale with
  | nil =>
    cases h
    have value : Nat.ofDigitChars 10 [] kept = kept := rfl
    exact ⟨0, rfl, by rw [value]; omega, by rw [value]; omega⟩
  | cons c cs ih =>
    have le := digitValue_le (digits c List.mem_cons_self)
    have digits' : ∀ d ∈ cs, d.isDigit = true := fun d mem => digits d (List.mem_cons_of_mem c mem)
    have value : Nat.ofDigitChars 10 (c :: cs) mantissa =
        Nat.ofDigitChars 10 cs (10 * mantissa + digitValue c) := Nat.ofDigitChars_cons
    obtain ⟨low, high⟩ := ofDigitChars_bounds digits' (10 * mantissa + digitValue c)
    rw [readFraction] at h
    rw [value, List.length_cons]
    split at h
    · exact near_of_roundLast small le low high h
    · next room =>
      obtain ⟨more, same, near⟩ := ih digits' (by omega) h
      exact ⟨more, by omega, near⟩

/-- Digits with a fraction have no room if and only if they reach half a unit below `2 ^ 96`. -/
theorem ofDigits?_eq_none_iff {negative : Bool} {whole fraction : List Char}
    (digits : ∀ c ∈ fraction, c.isDigit = true) :
    ofDigits? negative whole fraction = none ↔
      (2 ^ 97 - 1) * 10 ^ fraction.length ≤ 2 * Nat.ofDigitChars 10 (whole ++ fraction) 0 := by
  rw [Nat.ofDigitChars_append, ← readDigits_eq, ofDigits?]
  split
  · next large =>
    refine ⟨fun _ => ?_, fun _ => rfl⟩
    have low := (ofDigitChars_bounds digits (readDigits whole)).1
    have scaled : 2 ^ 96 * 10 ^ fraction.length ≤ readDigits whole * 10 ^ fraction.length :=
      Nat.mul_le_mul_right _ large
    omega
  · next small =>
    have small : readDigits whole < 2 ^ 96 := by omega
    have none : readFraction (readDigits whole) 0 fraction = none ↔ 0 = 0 ∧
        (2 ^ 97 - 1) * 10 ^ fraction.length ≤
          2 * Nat.ofDigitChars 10 fraction (readDigits whole) :=
      readFraction_eq_none_iff digits small
    split
    · next missing =>
      refine ⟨fun _ => (none.1 missing).2, fun _ => rfl⟩
    · next mantissa scale found =>
      have inRange := bounds_of_readFraction small (by omega) found
      rw [ofParts?, dif_pos inRange]
      refine ⟨by simp, fun reached => ?_⟩
      rw [none.2 ⟨rfl, reached⟩] at found
      cases found

end Decimal

namespace Token

/-- The digits behind the point of a number word. -/
def placesOf (spelling : List Char) : List Char :=
  (spelling.dropWhile Char.isDigit).drop 1

/-- The number that a number word spells, nothing rounded. -/
def literalValue (spelling : List Char) : ℚ :=
  Nat.ofDigitChars 10 (spelling.takeWhile Char.isDigit ++ placesOf spelling) 0 /
    10 ^ (placesOf spelling).length

/-- The digits in front of the point and those behind it are read. -/
theorem readNumber?_eq (spelling : List Char) : readNumber? spelling =
    Decimal.ofDigits? false (spelling.takeWhile Char.isDigit) (placesOf spelling) := by
  have parts : spelling.takeWhile Char.isDigit ++ spelling.dropWhile Char.isDigit = spelling :=
    List.takeWhile_append_dropWhile
  rw [readNumber?, placesOf]
  split
  · next fraction same => rw [same, List.drop_one, List.tail_cons]
  · next none =>
    rw [none, List.append_nil] at parts
    rw [none, parts, List.drop_nil]

/-- The spelling is that of a number in the range of decimals: it is more than half a unit below
`2 ^ 96`, so that rounding to an integer keeps it below. -/
def InRange (spelling : List Char) : Prop :=
  literalValue spelling < 2 ^ 96 - 1 / 2

section

variable {spelling : List Char} (places : ∀ c ∈ placesOf spelling, c.isDigit = true)

include places

/-- The number words without room are those out of range. -/
theorem readNumber?_eq_none_iff : readNumber? spelling = none ↔ ¬InRange spelling := by
  have positive : (0 : ℚ) < 10 ^ (placesOf spelling).length := by positivity
  have odd : ((2 ^ 97 - 1 : ℕ) : ℚ) = 2 * (2 ^ 96 - 1 / 2) := by norm_num
  have halves : ∀ n : ℕ, ¬(n : ℚ) / 10 ^ (placesOf spelling).length < 2 ^ 96 - 1 / 2 ↔
      (2 ^ 97 - 1) * 10 ^ (placesOf spelling).length ≤ 2 * n := by
    intro n
    rw [not_lt, le_div_iff₀ positive, ← Nat.cast_le (α := ℚ), Nat.cast_mul, Nat.cast_mul, odd,
      Nat.cast_pow, Nat.cast_ofNat, Nat.cast_ofNat]
    constructor <;> intro h <;> linarith
  rw [readNumber?_eq, Decimal.ofDigits?_eq_none_iff places, InRange, literalValue, halves]

/-- The decimal that is read is off by half a unit of its last place at most. -/
theorem abs_sub_literalValue_le {d : Decimal} (h : readNumber? spelling = some d) :
    |d.toRat - literalValue spelling| ≤ 1 / (2 * 10 ^ d.scale) := by
  rw [readNumber?_eq, Decimal.ofDigits?] at h
  split at h
  · cases h
  · next small =>
    split at h
    · cases h
    · next kept scale found =>
      obtain ⟨more, digits, low, high⟩ :=
        Decimal.near_of_readFraction places (Nat.lt_of_not_le small) found
      have value := Decimal.toRat_of_ofParts? h
      have taken : d.scale = scale := by
        unfold Decimal.ofParts? at h
        split at h
        · cases h
          rfl
        · cases h
      rw [Nat.zero_add] at digits
      rw [Decimal.readDigits_eq, ← Nat.ofDigitChars_append] at low high
      rw [literalValue, value, taken, digits, Rat.mkRat_eq_div, if_neg Bool.false_ne_true]
      push_cast
      exact Decimal.abs_shorter_sub_le low high

end

end Token

end Reckon
