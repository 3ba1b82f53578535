import Reckon.Token.Lexer

/-!
# Digits read back

The digits of a decimal are read as that decimal: none of them is without room, so none of them
rounds. Padding with zeros in front keeps at least one digit before the point.
-/

namespace Reckon.Decimal

/-- Reading digits one by one is the library's reading in base ten. -/
theorem readDigits_eq (cs : List Char) : readDigits cs = Nat.ofDigitChars 10 cs 0 :=
  rfl

/-- More digits make no smaller number. -/
theorem le_ofDigitChars (cs : List Char) (start : Nat) : start ≤ Nat.ofDigitChars 10 cs start := by
  rw [Nat.ofDigitChars_eq_ofDigitChars_zero]
  have grown : start ≤ 10 ^ cs.length * start :=
    Nat.le_mul_of_pos_left start (Nat.pow_pos (by omega))
  omega

/-- Digits behind the point for which there is room are all taken. -/
theorem readFraction_eq {cs : List Char} {mantissa scale : Nat} (short : scale + cs.length ≤ 28)
    (small : Nat.ofDigitChars 10 cs mantissa < 2 ^ 96) :
    readFraction mantissa scale cs = some (Nat.ofDigitChars 10 cs mantissa, scale + cs.length) := by
  induction cs generalizing mantissa scale with
  | nil => rfl
  | cons c cs ih =>
    rw [List.length_cons] at short
    have small : Nat.ofDigitChars 10 cs (10 * mantissa + digitValue c) < 2 ^ 96 := by
      rw [Nat.ofDigitChars_cons] at small
      exact small
    have fits : 10 * mantissa + digitValue c < 2 ^ 96 :=
      Nat.lt_of_le_of_lt (le_ofDigitChars cs _) small
    have room : ¬(scale = 28 ∨ 2 ^ 96 ≤ 10 * mantissa + digitValue c) := by omega
    have short : scale + 1 + cs.length ≤ 28 := by omega
    have same : scale + 1 + cs.length = scale + (cs.length + 1) := by omega
    rw [readFraction, if_neg room, ih short small, same, Nat.ofDigitChars_cons]
    rfl

/-- The digits of a mantissa with zeros in front, so that one digit at least is left over when
`scale` of them are cut off. -/
def padded (mantissa scale : Nat) : List Char :=
  List.replicate (scale + 1 - (Nat.toDigits 10 mantissa).length) '0' ++ Nat.toDigits 10 mantissa

/-- There is a digit left in front of the places that are cut off. -/
theorem scale_lt_length_padded (mantissa scale : Nat) : scale < (padded mantissa scale).length := by
  rw [padded, List.length_append, List.length_replicate]
  omega

/-- All padded characters are digits. -/
theorem isDigit_of_mem_padded {mantissa scale : Nat} {c : Char} (h : c ∈ padded mantissa scale) :
    c.isDigit = true := by
  rcases List.mem_append.1 h with zeros | digits
  · rw [(List.mem_replicate.1 zeros).2]
    rfl
  · exact Nat.isDigit_of_mem_toDigits (by omega) (by omega) digits

/-- Padding does not change the number that the digits stand for. -/
theorem ofDigitChars_padded (mantissa scale : Nat) :
    Nat.ofDigitChars 10 (padded mantissa scale) 0 = mantissa := by
  rw [padded, Nat.ofDigitChars_append, Nat.ofDigitChars_replicate_zero, Nat.mul_zero,
    Nat.ofDigitChars_ten_toDigits]

/-- The digits in front of the point. -/
def wholePart (mantissa scale : Nat) : List Char :=
  (padded mantissa scale).take ((padded mantissa scale).length - scale)

/-- The digits behind the point. -/
def fractionPart (mantissa scale : Nat) : List Char :=
  (padded mantissa scale).drop ((padded mantissa scale).length - scale)

/-- A number is written as its whole part, and where it has places with a point and these behind it.
-/
theorem digits_eq (mantissa scale : Nat) :
    digits mantissa scale =
      if scale = 0 then wholePart mantissa 0
      else wholePart mantissa scale ++ '.' :: fractionPart mantissa scale := by
  by_cases none : scale = 0
  · have plain : padded mantissa 0 = Nat.toDigits 10 mantissa := by
      have some := Nat.length_toDigits_pos (b := 10) (n := mantissa)
      rw [padded, Nat.sub_eq_zero_of_le some]
      rfl
    rw [digits, if_pos none, if_pos none, wholePart, Nat.sub_zero, List.take_length, plain]
  · rw [digits, if_neg none, if_neg none]
    rfl

/-- There are as many digits behind the point as the scale says. -/
theorem length_fractionPart (mantissa scale : Nat) :
    (fractionPart mantissa scale).length = scale := by
  have long := scale_lt_length_padded mantissa scale
  rw [fractionPart, List.length_drop]
  omega

/-- The characters in front of the point are digits. -/
theorem isDigit_of_mem_wholePart {mantissa scale : Nat} {c : Char}
    (h : c ∈ wholePart mantissa scale) : c.isDigit = true :=
  isDigit_of_mem_padded (List.mem_of_mem_take h)

/-- At least one digit stands in front of the point. -/
theorem exists_wholePart (mantissa scale : Nat) :
    ∃ c cs, wholePart mantissa scale = c :: cs ∧ c.isDigit = true := by
  have long := scale_lt_length_padded mantissa scale
  have nonempty : (wholePart mantissa scale).length ≠ 0 := by
    rw [wholePart, List.length_take]
    omega
  cases split : wholePart mantissa scale with
  | nil => exact absurd (congrArg List.length split) nonempty
  | cons c cs =>
    have first : c ∈ wholePart mantissa scale := by
      rw [split]
      exact List.mem_cons_self
    exact ⟨c, cs, rfl, isDigit_of_mem_wholePart first⟩

/-- A number begins with a digit. -/
theorem exists_digits (mantissa scale : Nat) :
    ∃ c cs, digits mantissa scale = c :: cs ∧ c.isDigit = true := by
  rw [digits_eq]
  split
  · exact exists_wholePart mantissa 0
  · obtain ⟨c, cs, same, digit⟩ := exists_wholePart mantissa scale
    refine ⟨c, cs ++ '.' :: fractionPart mantissa scale, ?_, digit⟩
    rw [same, List.cons_append]

/-- The characters behind the point are digits. -/
theorem isDigit_of_mem_fractionPart {mantissa scale : Nat} {c : Char}
    (h : c ∈ fractionPart mantissa scale) : c.isDigit = true :=
  isDigit_of_mem_padded (List.mem_of_mem_drop h)

/-- The digits in front of the point and behind it together stand for the mantissa. -/
theorem ofDigitChars_parts (mantissa scale : Nat) :
    Nat.ofDigitChars 10 (fractionPart mantissa scale) (readDigits (wholePart mantissa scale)) =
      mantissa := by
  rw [readDigits_eq, ← Nat.ofDigitChars_append, wholePart, fractionPart, List.take_append_drop,
    ofDigitChars_padded]

/-- The parts of a decimal are read as the decimal. -/
theorem ofDigits?_parts {d : Decimal} (h : d.negative = false) :
    ofDigits? false (wholePart d.mantissa d.scale) (fractionPart d.mantissa d.scale) = some d := by
  have whole := ofDigitChars_parts d.mantissa d.scale
  have short : 0 + (fractionPart d.mantissa d.scale).length ≤ 28 := by
    have bound := d.scale_le
    rw [length_fractionPart]
    omega
  have small : Nat.ofDigitChars 10 (fractionPart d.mantissa d.scale)
      (readDigits (wholePart d.mantissa d.scale)) < 2 ^ 96 := by
    rw [whole]
    exact d.mantissa_lt
  have front : ¬2 ^ 96 ≤ readDigits (wholePart d.mantissa d.scale) := by
    have grown := le_ofDigitChars (fractionPart d.mantissa d.scale)
      (readDigits (wholePart d.mantissa d.scale))
    omega
  have inRange : d.mantissa < 2 ^ 96 ∧ d.scale ≤ 28 := ⟨d.mantissa_lt, d.scale_le⟩
  rw [ofDigits?, if_neg front, readFraction_eq short small, whole, length_fractionPart]
  simp only [Nat.zero_add, ofParts?, dif_pos inRange, Bool.false_and]
  cases d
  cases h
  rfl

/-- The text of a negative number is that of its magnitude behind a minus sign. -/
theorem text_of_negative {d : Decimal} (h : d.negative = true) :
    d.text = "-" ++ d.neg.text := by
  have positive : d.neg.negative = false := by rw [Decimal.neg, h]; rfl
  rw [Decimal.text, Decimal.text, h, positive, if_pos rfl, if_neg Bool.false_ne_true,
    String.ofList_append, List.nil_append]
  rfl

end Reckon.Decimal
