import Mathlib.Data.List.TakeWhile
import Reckon.Proofs.Token.Concatenation

/-!
# The longest word at the front

How the words of each shape are spelled, said without the lexer, and which word is the longest one
at the front of some characters. The lexer cuts off exactly that word. A word shows by its first
character whether it is a number, a name or a symbol, so only words of one of these classes compete.
-/

namespace Reckon.Token

open Text (isLetter isNameTail)

/-- How the words of each shape are spelled. -/
inductive IsWord : Shape → List Char → Prop where
  /-- Digits, at least one. -/
  | whole {digits : List Char} : digits ≠ [] → (∀ c ∈ digits, c.isDigit = true) →
      IsWord .number digits
  /-- Digits, at least one, with a point and possibly more digits behind them. -/
  | fraction {digits places : List Char} : digits ≠ [] → (∀ c ∈ digits, c.isDigit = true) →
      (∀ c ∈ places, c.isDigit = true) → IsWord .number (digits ++ '.' :: places)
  /-- A letter, and then letters, digits and underscores. -/
  | name {c : Char} {tail : List Char} : isLetter c = true →
      (∀ d ∈ tail, isLetter d = true ∨ d.isDigit = true ∨ d = '_') → IsWord .name (c :: tail)
  | operator (op : Operator) : IsWord (.operator op) op.symbol.toList
  | leftParen : IsWord .leftParen ['(']
  | rightParen : IsWord .rightParen [')']
  | comma : IsWord .comma [',']
  | leftBracket : IsWord .leftBracket ['[']
  | rightBracket : IsWord .rightBracket [']']

/-- The word stands at the front of the characters, and no longer one does. -/
structure IsLongestFront (shape : Shape) (word cs : List Char) : Prop where
  isWord : IsWord shape word
  isFront : word <+: cs
  longest : ∀ shape' word', IsWord shape' word' → word' <+: cs → word'.length ≤ word.length

/-! ## Classes of words -/

/-- A name goes on with letters, digits and underscores. -/
theorem isNameTail_iff {d : Char} :
    isNameTail d = true ↔ isLetter d = true ∨ d.isDigit = true ∨ d = '_' := by
  rw [isNameTail, Bool.or_eq_true, Bool.or_eq_true, or_assoc, beq_iff_eq]

/-- A word that is neither a number nor a name: it is cut off from itself, and begins neither with a
digit nor with a letter. -/
def IsSymbol (shape : Shape) (word : List Char) : Prop :=
  symbolFront? word = some (shape, word) ∧
    ∀ c, word.head? = some c → c.isDigit = false ∧ isLetter c = false

/-- Characters that are cut off whole, and begin with neither a digit nor a letter, are a symbol. -/
theorem isSymbol_cons {shape : Shape} {c : Char} {tail : List Char}
    (front : symbolFront? (c :: tail) = some (shape, c :: tail))
    (plain : c.isDigit = false ∧ isLetter c = false) : IsSymbol shape (c :: tail) := by
  refine ⟨front, fun d first => ?_⟩
  obtain rfl : c = d := Option.some.inj first
  exact plain

/-- The symbol of an operator is a symbol among words. -/
theorem isSymbol_operator (op : Operator) : IsSymbol (.operator op) op.symbol.toList := by
  cases op <;> exact isSymbol_cons rfl (by decide)

/-- A word is a number, a name or a symbol. -/
theorem IsWord.classes {shape : Shape} {word : List Char} (h : IsWord shape word) :
    (shape = .number ∧ ∃ c tail, word = c :: tail ∧ c.isDigit = true) ∨
      (shape = .name ∧ ∃ c tail, word = c :: tail ∧ isLetter c = true ∧
        ∀ d ∈ tail, isNameTail d = true) ∨
      IsSymbol shape word := by
  cases h with
  | whole nonempty digits =>
    obtain ⟨c, tail, rfl⟩ := List.exists_cons_of_ne_nil nonempty
    exact .inl ⟨rfl, c, tail, rfl, digits c List.mem_cons_self⟩
  | fraction nonempty digits _ =>
    obtain ⟨c, tail, rfl⟩ := List.exists_cons_of_ne_nil nonempty
    exact .inl ⟨rfl, c, _, List.cons_append, digits c List.mem_cons_self⟩
  | name letter tails =>
    exact .inr (.inl ⟨rfl, _, _, rfl, letter, fun d mem => isNameTail_iff.2 (tails d mem)⟩)
  | operator op => exact .inr (.inr (isSymbol_operator op))
  | leftParen => exact .inr (.inr (isSymbol_cons rfl (by decide)))
  | rightParen => exact .inr (.inr (isSymbol_cons rfl (by decide)))
  | comma => exact .inr (.inr (isSymbol_cons rfl (by decide)))
  | leftBracket => exact .inr (.inr (isSymbol_cons rfl (by decide)))
  | rightBracket => exact .inr (.inr (isSymbol_cons rfl (by decide)))

/-- No word is empty. -/
theorem IsWord.exists_cons {shape : Shape} {word : List Char} (h : IsWord shape word) :
    ∃ c tail, word = c :: tail := by
  rcases h.classes with ⟨-, c, tail, same, -⟩ | ⟨-, c, tail, same, -⟩ | symbol
  · exact ⟨c, tail, same⟩
  · exact ⟨c, tail, same⟩
  · exact List.exists_cons_of_ne_nil (symbolFront?_ne_nil symbol.1)

/-- No word is spelled like one of another shape. -/
theorem IsWord.shape_unique {shape shape' : Shape} {word : List Char} (h : IsWord shape word)
    (h' : IsWord shape' word) : shape = shape' := by
  rcases h.classes with ⟨rfl, c, tail, rfl, digit⟩ | ⟨rfl, c, tail, rfl, letter, -⟩ | symbol
  · rcases h'.classes with ⟨rfl, -⟩ | ⟨-, d, _, same, letter, -⟩ | symbol'
    · rfl
    · cases same
      rw [isDigit_eq_false_of_isLetter letter] at digit
      cases digit
    · rw [(symbol'.2 c rfl).1] at digit
      cases digit
  · rcases h'.classes with ⟨-, d, _, same, digit⟩ | ⟨rfl, -⟩ | symbol'
    · cases same
      rw [isDigit_eq_false_of_isLetter letter] at digit
      cases digit
    · rfl
    · rw [(symbol'.2 c rfl).2] at letter
      cases letter
  · rcases h'.classes with ⟨-, c, _, rfl, digit⟩ | ⟨-, c, _, rfl, letter, -⟩ | symbol'
    · rw [(symbol.2 c rfl).1] at digit
      cases digit
    · rw [(symbol.2 c rfl).2] at letter
      cases letter
    · have same := symbol.1.symm.trans symbol'.1
      exact congrArg Prod.fst (Option.some.inj same)

/-- Words begin with characters that do not stand between words. -/
theorem IsWord.isGap_eq_false {shape : Shape} {c : Char} {tail : List Char}
    (h : IsWord shape (c :: tail)) : isGap c = false := by
  rcases h.classes with ⟨-, d, _, same, digit⟩ | ⟨-, d, _, same, letter, -⟩ | symbol
  · cases same
    exact Token.isGap_eq_false (by decide) digit
  · cases same
    exact Token.isGap_eq_false (by decide) letter
  · rw [Bool.eq_false_iff]
    intro gap
    have front := symbol.1
    simp only [isGap, Bool.or_eq_true, beq_iff_eq] at gap
    rcases gap with ((rfl | rfl) | rfl) | rfl <;> cases front

/-! ## What is cut off is a word -/

/-- What is cut off as a symbol is a word. -/
theorem isWord_of_symbolFront? {shape : Shape} {word cs : List Char}
    (h : symbolFront? cs = some (shape, word)) : IsWord shape word := by
  unfold symbolFront? at h
  split at h <;> cases h
  case h_1 => exact .operator .greaterEqual
  case h_2 => exact .operator .lessEqual
  case h_3 => exact .operator .equal
  case h_4 => exact .operator .notEqual
  case h_5 => exact .operator .add
  case h_6 => exact .operator .subtract
  case h_7 => exact .operator .multiply
  case h_8 => exact .operator .divide
  case h_9 => exact .operator .power
  case h_10 => exact .operator .greater
  case h_11 => exact .operator .less
  case h_12 => exact .operator .assign
  case h_13 => exact .leftParen
  case h_14 => exact .rightParen
  case h_15 => exact .comma
  case h_16 => exact .leftBracket
  case h_17 => exact .rightBracket

/-- What is cut off as a number is a word. -/
theorem isWord_numberFront {c : Char} {cs : List Char} (digit : c.isDigit = true) :
    IsWord .number (numberFront (c :: cs)) := by
  have nonempty : (c :: cs).takeWhile Char.isDigit ≠ [] := by
    rw [List.takeWhile_cons_of_pos digit]
    exact List.cons_ne_nil _ _
  rw [numberFront]
  split
  · exact .fraction nonempty (fun _ => List.mem_takeWhile_imp) fun _ => List.mem_takeWhile_imp
  · exact .whole nonempty fun _ => List.mem_takeWhile_imp

/-- What is cut off at the front is a word. -/
theorem isWord_of_wordFront? {shape : Shape} {word cs : List Char}
    (h : wordFront? cs = some (shape, word)) : IsWord shape word := by
  cases cs with
  | nil => cases h
  | cons c cs =>
    rw [wordFront?] at h
    split at h
    · next digit =>
      cases h
      exact isWord_numberFront digit
    · split at h
      · next letter =>
        cases h
        exact .name letter fun d mem => isNameTail_iff.1 (List.mem_takeWhile_imp mem)
      · exact isWord_of_symbolFront? h

/-- What is cut off at the front stands there. -/
theorem isFront_of_wordFront? {shape : Shape} {word cs : List Char}
    (h : wordFront? cs = some (shape, word)) : word <+: cs := by
  obtain ⟨behind, same⟩ := exists_append_of_wordFront? h
  exact ⟨behind, same.symm⟩

/-! ## Nothing longer is a word -/

/-- A run of characters of a class lies inside the longest such run. -/
theorem prefix_takeWhile {p : Char → Bool} {front cs : List Char} (all : ∀ c ∈ front, p c = true)
    (isFront : front <+: cs) : front <+: cs.takeWhile p := by
  obtain ⟨behind, rfl⟩ := isFront
  rw [List.takeWhile_append_of_pos all]
  exact List.prefix_append _ _

/-- The digits at the front belong to the number at the front. -/
theorem takeWhile_prefix_numberFront (cs : List Char) :
    cs.takeWhile Char.isDigit <+: numberFront cs := by
  rw [numberFront]
  split
  · exact List.prefix_append _ _
  · exact List.prefix_refl _

/-- A number at the front lies inside the number that is cut off. -/
theorem prefix_numberFront {word cs : List Char} (h : IsWord .number word) (isFront : word <+: cs) :
    word <+: numberFront cs := by
  cases h with
  | whole _ digits =>
    exact (prefix_takeWhile digits isFront).trans (takeWhile_prefix_numberFront cs)
  | @fraction digits places _ isDigits isPlaces =>
    obtain ⟨behind, rfl⟩ := isFront
    have ended : ∀ c, ('.' :: (places ++ behind)).head? = some c → c.isDigit = false := by
      intro c first
      obtain rfl : '.' = c := Option.some.inj first
      rfl
    have inside : places <+: (places ++ behind).takeWhile Char.isDigit :=
      prefix_takeWhile isPlaces (List.prefix_append _ _)
    rw [List.append_assoc, List.cons_append, numberFront, takeWhile_append_eq isDigits ended,
      dropWhile_append_eq isDigits ended]
    exact (List.prefix_append_right_inj digits).2 (List.cons_prefix_cons.2 ⟨rfl, inside⟩)

/-- A symbol may go on with an equals sign, and only then a longer one is cut off. -/
theorem exists_symbolFront? {shape : Shape} {word cs : List Char} (h : IsSymbol shape word)
    (isFront : word <+: cs) : ∃ shape' word', symbolFront? cs = some (shape', word') ∧
      word.length ≤ word'.length := by
  obtain ⟨behind, rfl⟩ := isFront
  cases behind with
  | nil => exact ⟨shape, word, by rw [List.append_nil, h.1], Nat.le_refl _⟩
  | cons c behind =>
    by_cases equals : c = '='
    · subst equals
      have front := h.1
      unfold symbolFront? at front
      split at front <;> cases front
      all_goals exact ⟨_, _, rfl, by simp⟩
    · have ends : (c :: behind).head? ≠ some '=' := fun same => equals (Option.some.inj same)
      exact ⟨shape, word, symbolFront?_append ends h.1, Nat.le_refl _⟩

/-- Where a word stands at the front, one at least as long is cut off. -/
theorem exists_wordFront? {shape : Shape} {word cs : List Char} (h : IsWord shape word)
    (isFront : word <+: cs) : ∃ shape' word', wordFront? cs = some (shape', word') ∧
      word.length ≤ word'.length := by
  rcases h.classes with ⟨rfl, c, tail, rfl, digit⟩ | ⟨rfl, c, tail, rfl, letter, tails⟩ | symbol
  · have inside := prefix_numberFront h isFront
    obtain ⟨behind, rfl⟩ := isFront
    refine ⟨.number, numberFront (c :: tail ++ behind), ?_, inside.length_le⟩
    rw [List.cons_append, wordFront?, if_pos digit]
  · obtain ⟨behind, rfl⟩ := isFront
    have inside : tail <+: (tail ++ behind).takeWhile isNameTail :=
      prefix_takeWhile tails (List.prefix_append _ _)
    refine ⟨.name, c :: (tail ++ behind).takeWhile isNameTail, ?_, ?_⟩
    · rw [List.cons_append, wordFront?, isDigit_eq_false_of_isLetter letter,
        if_neg Bool.false_ne_true, if_pos letter]
    · exact Nat.succ_le_succ inside.length_le
  · obtain ⟨shape', word', front, le⟩ := exists_symbolFront? symbol isFront
    obtain ⟨c, tail, rfl⟩ := h.exists_cons
    obtain ⟨behind, rfl⟩ := isFront
    have plain := symbol.2 c rfl
    refine ⟨shape', word', ?_, le⟩
    rw [List.cons_append] at front ⊢
    rw [wordFront?, plain.1, plain.2, if_neg Bool.false_ne_true, if_neg Bool.false_ne_true, front]

/-! ## The longest word -/

/-- There is one longest word at the front at most. -/
theorem IsLongestFront.unique {shape shape' : Shape} {word word' cs : List Char}
    (h : IsLongestFront shape word cs) (h' : IsLongestFront shape' word' cs) :
    shape = shape' ∧ word = word' := by
  have le := h.longest shape' word' h'.isWord h'.isFront
  have ge := h'.longest shape word h.isWord h.isFront
  obtain rfl : word = word' :=
    (List.prefix_of_prefix_length_le h.isFront h'.isFront ge).eq_of_length (Nat.le_antisymm ge le)
  exact ⟨h.isWord.shape_unique h'.isWord, rfl⟩

/-- What is cut off is the longest word at the front. -/
theorem isLongestFront_of_wordFront? {shape : Shape} {word cs : List Char}
    (h : wordFront? cs = some (shape, word)) : IsLongestFront shape word cs := by
  refine ⟨isWord_of_wordFront? h, isFront_of_wordFront? h, fun shape' word' isWord' isFront' => ?_⟩
  obtain ⟨_, _, found, le⟩ := exists_wordFront? isWord' isFront'
  rw [h] at found
  cases found
  exact le

/-- The word that is cut off is the longest one at the front. -/
theorem wordFront?_eq_some_iff {shape : Shape} {word cs : List Char} :
    wordFront? cs = some (shape, word) ↔ IsLongestFront shape word cs := by
  refine ⟨isLongestFront_of_wordFront?, fun h => ?_⟩
  obtain ⟨shape', word', found, -⟩ := exists_wordFront? h.isWord h.isFront
  obtain ⟨rfl, rfl⟩ := h.unique (isLongestFront_of_wordFront? found)
  exact found

/-- Nothing is cut off where no word stands at the front. -/
theorem wordFront?_eq_none_iff {cs : List Char} :
    wordFront? cs = none ↔ ∀ shape word, IsWord shape word → ¬word <+: cs := by
  constructor
  · intro none shape word isWord isFront
    obtain ⟨_, _, found, -⟩ := exists_wordFront? isWord isFront
    rw [none] at found
    cases found
  · intro none
    cases front : wordFront? cs with
    | none => rfl
    | some found =>
      exact absurd (isFront_of_wordFront? front)
        (none found.1 found.2 (isWord_of_wordFront? front))

end Reckon.Token
