import Reckon.Proofs.Decimal.Places

/-!
# Rounding a rounded result

Results are rounded to places after what counts as zero has become zero. Rounding a result again
changes nothing, and a result is zero or well away from it, with one exception: a number just above
the threshold may be rounded onto it, and then the second pass takes it for zero.
-/

namespace Reckon

namespace Decimal

/-- The number is above the threshold `1e-7`, but not by half a unit of the last place that is kept:
it is rounded onto the threshold. With fewer than seven places the threshold is no multiple of the
unit, and no number falls to it. -/
def FallsToThreshold (places : Nat) (d : Decimal) : Prop :=
  7 ≤ places ∧ 1 / 10 ^ 7 < |d.toRat| ∧ |d.toRat| < 1 / 10 ^ 7 + 1 / (2 * 10 ^ places)

/-- The normal form of zero is zero. -/
theorem normalize_of_isZero {d : Decimal} (h : d.isZero = true) : d.normalize = zero := by
  have same : d.toRat = zero.toRat := (toRat_of_isZero h).trans (toRat_of_isZero rfl).symm
  rw [normalize_congr same]
  decide

/-- Rounding brings no number below a multiple of the last unit that it has reached. -/
theorem le_abs_roundTo {places k : Nat} {d : Decimal} (h : (k : ℚ) / 10 ^ places ≤ |d.toRat|) :
    (k : ℚ) / 10 ^ places ≤ |(d.roundTo places).toRat| := by
  by_cases short : d.scale ≤ places
  · rwa [roundTo_of_le short]
  · obtain ⟨more, longer⟩ := exists_longer short
    obtain ⟨scale, mantissa⟩ := roundTo_of_longer longer
    have positive : 0 < 10 ^ (more + 1) := pow_ten_pos _
    have place : (0 : ℚ) < 10 ^ places := by positivity
    rw [Value.abs_toRat, longer, pow_add, div_le_div_iff₀ place (by positivity), mul_left_comm,
      mul_comm (d.mantissa : ℚ), mul_le_mul_iff_right₀ place] at h
    have digits : k * 10 ^ (more + 1) ≤ d.mantissa := by exact_mod_cast h
    rw [Value.abs_toRat, scale, div_le_div_iff_of_pos_right place, mantissa, Nat.cast_le,
      Nat.le_div_iff_mul_le positive]
    exact digits.trans (Nat.le_add_right _ _)

end Decimal

namespace Value

open Decimal (FallsToThreshold)

/-- The value is exactly zero, or a number that does not count as zero. -/
def IsSettled (v : Value) : Prop :=
  v = zero ∨ ∃ d, v = number d ∧ 1 / 10 ^ 7 < |d.toRat|

/-- A negligible number is rounded to zero, to any number of places. -/
theorem rounded_of_isNegligible {d : Decimal} (small : d.isNegligible = true) (places : Nat) :
    (number d).rounded places = zero := by
  rw [rounded, if_pos small]

/-- Zero is rounded to zero. -/
theorem rounded_zero (places : Nat) : zero.rounded places = zero :=
  rounded_of_isNegligible (by decide) places

/-- What does not count as zero is shown as the nearest number with the places. -/
theorem exists_shown {d : Decimal} (counts : d.isNegligible = false) (places : Nat) :
    ∃ r, (number d).rounded places = number r ∧ r.toRat = (d.roundTo places).toRat ∧
      r.normalize = r ∧ r.scale ≤ places := by
  refine ⟨(d.roundTo places).normalize, ?_, Decimal.toRat_normalize _,
    Decimal.normalize_normalize _, ?_⟩
  · rw [rounded, if_neg (Bool.eq_false_iff.1 counts)]
  · exact (Decimal.trimZeros_snd_le _ _).trans (Decimal.scale_roundTo_le places d)

variable {d r : Decimal} {places : Nat}

/-- A number that is shown and does not count as zero stays as it is. -/
theorem stable_of_clear (shown : r.normalize = r) (short : r.scale ≤ places)
    (clear : 1 / 10 ^ 7 < |r.toRat|) :
    (number r).rounded places = number r ∧ (number r).IsSettled := by
  have counts : ¬r.isNegligible = true := fun small => clear.not_ge ((isNegligible_iff r).1 small)
  refine ⟨?_, .inr ⟨r, rfl, clear⟩⟩
  rw [rounded, if_neg counts, Decimal.roundTo_of_le short, shown]

/-- With fewer than seven places, what is shown and counts as zero is zero. -/
theorem stable_of_few_places (shown : r.normalize = r) (short : r.scale ≤ places)
    (few : places < 7) : (number r).rounded places = number r ∧ (number r).IsSettled := by
  cases counts : r.isNegligible with
  | true =>
    have none := (isNegligible_iff_isZero (by omega)).1 counts
    rw [← shown, Decimal.normalize_of_isZero none]
    exact ⟨rounded_zero places, .inl rfl⟩
  | false =>
    refine stable_of_clear shown short (lt_of_not_ge fun small => ?_)
    exact Bool.eq_false_iff.1 counts ((isNegligible_iff r).2 small)

/-- What is shown as the threshold does not stay. -/
theorem rounded_of_threshold (onIt : |r.toRat| = 1 / 10 ^ 7) (places : Nat) :
    (number r).rounded places = zero ∧ (number r).rounded places ≠ number r := by
  have taken : (number r).rounded places = zero :=
    rounded_of_isNegligible ((isNegligible_iff r).2 onIt.le) places
  refine ⟨taken, fun same => ?_⟩
  rw [taken, zero, number.injEq] at same
  rw [← same, Decimal.toRat_zero, abs_zero] at onIt
  norm_num at onIt

/-- With at least seven places, exactly the numbers that fall to the threshold count as zero once
they are rounded, and they are on it. -/
theorem abs_roundTo_le_threshold_iff (seven : 7 ≤ places) (clear : 1 / 10 ^ 7 < |d.toRat|) :
    (|(d.roundTo places).toRat| ≤ 1 / 10 ^ 7 ↔ d.FallsToThreshold places) ∧
      1 / 10 ^ 7 ≤ |(d.roundTo places).toRat| := by
  obtain ⟨more, rfl⟩ := Nat.exists_eq_add_of_le seven
  have threshold : (1 : ℚ) / 10 ^ 7 = (10 ^ more : ℕ) / 10 ^ (7 + more) := by
    rw [pow_add]
    push_cast
    field_simp
  have nearest := Decimal.abs_roundTo_le_iff (7 + more) (10 ^ more) d
  have above : 1 / 10 ^ 7 ≤ |d.toRat| := clear.le
  rw [← threshold] at nearest
  rw [threshold] at above
  refine ⟨nearest.trans ?_, threshold ▸ Decimal.le_abs_roundTo above⟩
  exact ⟨fun close => ⟨seven, clear, close⟩, fun falls => falls.2.2⟩

/-- Rounding a result to the same places changes nothing, and a result is zero or does not count as
zero, for exactly the numbers that do not fall to the threshold. Those that do are shown as the
threshold itself, and a second pass makes them zero. -/
theorem rounded_stable_iff (d : Decimal) (places : Nat) :
    let result := (number d).rounded places
    ((result.rounded places = result ∧ result.IsSettled) ↔ ¬d.FallsToThreshold places) ∧
      (d.FallsToThreshold places → result.rounded places = zero ∧
        ∃ r, result = number r ∧ |r.toRat| = 1 / 10 ^ 7) := by
  cases counts : d.isNegligible with
  | true =>
    have small := (isNegligible_iff d).1 counts
    have apart : ¬d.FallsToThreshold places := fun falls => (falls.2.1.trans_le small).false
    rw [rounded_of_isNegligible counts]
    exact ⟨iff_of_true ⟨rounded_zero places, .inl rfl⟩ apart, fun falls => absurd falls apart⟩
  | false =>
    have clear : 1 / 10 ^ 7 < |d.toRat| :=
      lt_of_not_ge fun small => Bool.eq_false_iff.1 counts ((isNegligible_iff d).2 small)
    obtain ⟨r, isResult, sameNumber, shown, short⟩ := exists_shown counts places
    intro result
    rw [show result = number r from isResult]
    by_cases falls : d.FallsToThreshold places
    · obtain ⟨falls_iff, above⟩ := abs_roundTo_le_threshold_iff falls.1 clear
      have onIt : |r.toRat| = 1 / 10 ^ 7 := sameNumber ▸ (falls_iff.2 falls).antisymm above
      obtain ⟨taken, changed⟩ := rounded_of_threshold onIt places
      exact ⟨iff_of_false (fun stable => changed stable.1) (not_not_intro falls),
        fun _ => ⟨taken, r, rfl, onIt⟩⟩
    · refine ⟨iff_of_true ?_ falls, fun h => absurd h falls⟩
      by_cases seven : 7 ≤ places
      · obtain ⟨falls_iff, -⟩ := abs_roundTo_le_threshold_iff seven clear
        refine stable_of_clear shown short (lt_of_not_ge fun small => ?_)
        exact falls (falls_iff.1 (sameNumber ▸ small))
      · exact stable_of_few_places shown short (Nat.lt_of_not_le seven)

/-- A number just above the threshold is shown as the threshold, with the ten places that are usual:
it is neither zero nor clear of zero, and the second pass makes it zero. -/
theorem rounded_not_stable :
    let d : Decimal := ⟨false, 10004, 11, by decide, by decide⟩
    let result := (number d).rounded 10
    result = number .epsilon ∧ ¬result.IsSettled ∧ result.rounded 10 = zero := by
  intro d result
  have shown : result = number .epsilon := by decide +kernel
  refine ⟨shown, ?_, by decide +kernel⟩
  rw [shown]
  rintro (none | ⟨r, same, away⟩)
  · cases none
  · cases same
    have onIt : |Decimal.epsilon.toRat| = 1 / 10 ^ 7 := by decide +kernel
    exact away.ne' onIt

end Value

end Reckon
