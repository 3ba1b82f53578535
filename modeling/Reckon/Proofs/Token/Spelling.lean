import Reckon.Proofs.Decimal.Digits
import Reckon.Proofs.Syntax.Grammar

/-!
# Spelling

Which characters are read as which kinds of tokens, from any position. The words of a text are cut
off at its front one by one; a word ends where it should if the character behind it cannot belong
to it.
-/

namespace Reckon.Token

open Grammar (reading)
open Text (isLetter isNameTail isSettledLetter)

/-- The characters are cut into words that are read as the given kinds, wherever they stand. -/
def Spells (cs : List Char) (ks : List Kind) : Prop :=
  ∀ position, ∃ words tokens,
    cut cs position = .ok words ∧ ofLexemes words = .ok tokens ∧ reading tokens = ks

/-- No word goes on over the front of these characters. -/
def Separate (cs : List Char) : Prop :=
  ∀ c, cs.head? = some c → isNameTail c = false ∧ c ≠ '.'

/-- The end of the text ends every word. -/
theorem separate_nil : Separate [] :=
  nofun

/-- A character of no name, other than a point, ends a word. -/
theorem separate_cons {c : Char} (cs : List Char) (tail : isNameTail c = false) (point : c ≠ '.') :
    Separate (c :: cs) := by
  intro first same
  obtain rfl : c = first := Option.some.inj same
  exact ⟨tail, point⟩

/-- What stands in no name is no digit. -/
theorem isDigit_eq_false_of_isNameTail {c : Char} (h : isNameTail c = false) :
    c.isDigit = false := by
  rw [isNameTail, Bool.or_eq_false_iff, Bool.or_eq_false_iff] at h
  exact h.1.2

/-- Digits are no letters. -/
theorem isDigit_eq_false_of_isLetter {c : Char} (h : isLetter c = true) : c.isDigit = false := by
  rw [Bool.eq_false_iff]
  intro digit
  have range : 48 ≤ c.toNat ∧ c.toNat ≤ 57 := by
    simp only [Char.isDigit, Bool.and_eq_true, decide_eq_true_eq, ge_iff_le,
      UInt32.le_iff_toNat_le] at digit
    exact digit
  have noAlpha : c.isAlpha = false := by
    rw [Bool.eq_false_iff]
    intro alpha
    have letters := Text.toNat_of_isAlpha alpha
    omega
  have ascii : c.toNat < 0x80 := by omega
  rw [isLetter, isSettledLetter, if_pos ascii, noAlpha, Bool.false_or, Text.inSpans_iff] at h
  obtain ⟨span, mem, low, _⟩ := h
  have high : ∀ span ∈ Text.addedLetterSpans, 0x80 ≤ span.1 := by decide
  have := high span mem
  omega

/-- Characters of a class without spaces and line ends do not stand between words. -/
theorem isGap_eq_false {p : Char → Bool} {c : Char}
    (outside : p ' ' = false ∧ p '\t' = false ∧ p '\r' = false ∧ p '\n' = false)
    (h : p c = true) : isGap c = false := by
  obtain ⟨space, tab, carriage, line⟩ := outside
  rw [Bool.eq_false_iff]
  intro gap
  simp only [isGap, Bool.or_eq_true, beq_iff_eq] at gap
  rcases gap with ((rfl | rfl) | rfl) | rfl
  · rw [space] at h; cases h
  · rw [tab] at h; cases h
  · rw [carriage] at h; cases h
  · rw [line] at h; cases h

section Runs

variable {p : Char → Bool} {front cs : List Char}

/-- A run of characters of a class ends where another character follows. -/
theorem takeWhile_append_eq (all : ∀ c ∈ front, p c = true)
    (ended : ∀ c, cs.head? = some c → p c = false) : (front ++ cs).takeWhile p = front := by
  rw [List.takeWhile_append_of_pos all]
  cases cs with
  | nil => rw [List.takeWhile_nil, List.append_nil]
  | cons c cs =>
    rw [List.takeWhile_cons_of_neg (Bool.eq_false_iff.1 (ended c rfl)), List.append_nil]

/-- Dropping what passes a test ends at the first character that does not. -/
theorem dropWhile_append_eq (all : ∀ c ∈ front, p c = true)
    (ended : ∀ c, cs.head? = some c → p c = false) : (front ++ cs).dropWhile p = cs := by
  rw [List.dropWhile_append_of_pos all]
  cases cs with
  | nil => rfl
  | cons c cs => rw [List.dropWhile_cons_of_neg (Bool.eq_false_iff.1 (ended c rfl))]

end Runs

/-! ## Cutting off one word -/

/-- No characters are read as no tokens. -/
theorem spells_nil : Spells [] [] := by
  intro position
  exact ⟨[], [], by rw [cut], rfl, rfl⟩

/-- From no characters nothing is read. -/
theorem eq_nil_of_spells_nil {ks : List Kind} (h : Spells [] ks) : ks = [] := by
  obtain ⟨words, tokens, isCut, read, same⟩ := h 0
  rw [cut] at isCut
  cases isCut
  cases read
  exact same.symm

/-- Gaps are skipped. -/
theorem Spells.gap {c : Char} {cs : List Char} {ks : List Kind} (gap : isGap c = true)
    (h : Spells cs ks) : Spells (c :: cs) ks := by
  intro position
  obtain ⟨words, tokens, isCut, read, same⟩ := h (position + c.utf8Size)
  refine ⟨words, tokens, ?_, read, same⟩
  rw [cut, if_pos gap, isCut]

/-- The word at the front is cut off. -/
theorem cut_word {c : Char} {w cs : List Char} {shape : Shape} (gap : isGap c = false)
    (front : wordFront? (c :: w ++ cs) = some (shape, c :: w)) {position : Nat}
    {words : List Lexeme}
    (rest : cut cs (position + byteLength (c :: w)) = .ok words) :
    cut (c :: w ++ cs) position = .ok (⟨shape, c :: w, position⟩ :: words) := by
  have dropped : (c :: w ++ cs).drop (c :: w).length = cs := List.drop_left
  rw [List.cons_append] at front dropped ⊢
  rw [cut, gap, if_neg Bool.false_ne_true]
  split
  · next none => rw [front] at none; cases none
  · next shape' spelling some =>
    rw [front] at some
    cases some
    rw [dropped, rest]

/-- A word in front of a text spells its own kind in front of the others, unless a `*` is understood
between them. -/
theorem Spells.word {c : Char} {w cs : List Char} (shape : Shape) {k : Kind} {ks : List Kind}
    (gap : isGap c = false) (front : wordFront? (c :: w ++ cs) = some (shape, c :: w))
    (kind : ∀ position, Lexeme.kind ⟨shape, c :: w, position⟩ = .ok k)
    (apart : (∀ value, k ≠ .number value) ∨ ∀ name, ks.head? ≠ some (.name name))
    (h : Spells cs ks) : Spells (c :: w ++ cs) (k :: ks) := by
  intro position
  obtain ⟨words, tokens, isCut, read, same⟩ := h (position + byteLength (c :: w))
  refine ⟨_, ⟨k, String.ofList (c :: w), position⟩ :: tokens, cut_word gap front isCut, ?_, ?_⟩
  · rw [ofLexemes, kind position, read]
  · rcases apart with other | noName
    · rw [Grammar.reading_of_kind rfl other, same]
    · have ended : startsWithName tokens = false := by
        rw [Bool.eq_false_iff]
        intro starts
        obtain ⟨name, named⟩ := Grammar.startsWithName_iff.1 starts
        rw [same] at named
        exact noName name named
      rw [reading, ended, Bool.and_false, if_neg Bool.false_ne_true, same]

/-! ## Symbols -/

/-- A symbol in front of a text. -/
theorem Spells.symbol {c : Char} {w cs : List Char} {shape : Shape} {k : Kind} {ks : List Kind}
    (plain : isGap c = false ∧ c.isDigit = false ∧ isLetter c = false)
    (front : symbolFront? (c :: w ++ cs) = some (shape, c :: w))
    (kind : ∀ position, Lexeme.kind ⟨shape, c :: w, position⟩ = .ok k)
    (other : ∀ value, k ≠ .number value) (h : Spells cs ks) :
    Spells (c :: w ++ cs) (k :: ks) := by
  refine .word shape plain.1 ?_ kind (.inl other) h
  rw [List.cons_append] at front ⊢
  rw [wordFront?, plain.2.1, plain.2.2, if_neg Bool.false_ne_true, if_neg Bool.false_ne_true, front]

section Symbols

variable {cs : List Char} {ks : List Kind}

/-- An opening parenthesis is a token of its own. -/
theorem Spells.leftParen (h : Spells cs ks) : Spells ('(' :: cs) (.leftParen :: ks) :=
  .symbol (w := []) (by decide) rfl (fun _ => rfl) nofun h

/-- A closing parenthesis is a token of its own. -/
theorem Spells.rightParen (h : Spells cs ks) : Spells (')' :: cs) (.rightParen :: ks) :=
  .symbol (w := []) (by decide) rfl (fun _ => rfl) nofun h

/-- An opening bracket is a token of its own. -/
theorem Spells.leftBracket (h : Spells cs ks) : Spells ('[' :: cs) (.leftBracket :: ks) :=
  .symbol (w := []) (by decide) rfl (fun _ => rfl) nofun h

/-- A closing bracket is a token of its own. -/
theorem Spells.rightBracket (h : Spells cs ks) : Spells (']' :: cs) (.rightBracket :: ks) :=
  .symbol (w := []) (by decide) rfl (fun _ => rfl) nofun h

/-- A comma is a token of its own. -/
theorem Spells.comma (h : Spells cs ks) : Spells (',' :: cs) (.comma :: ks) :=
  .symbol (w := []) (by decide) rfl (fun _ => rfl) nofun h

/-- A minus sign is a token of its own. -/
theorem Spells.minus (h : Spells cs ks) : Spells ('-' :: cs) (.operator .subtract :: ks) :=
  .symbol (w := []) (by decide) rfl (fun _ => rfl) nofun h

/-- A caret is a token of its own. -/
theorem Spells.caret (h : Spells cs ks) : Spells ('^' :: cs) (.operator .power :: ks) :=
  .symbol (w := []) (by decide) rfl (fun _ => rfl) nofun h

/-- An operator ends where a space follows it. -/
theorem Spells.operator (op : Operator) (h : Spells (' ' :: cs) ks) :
    Spells (op.symbol.toList ++ ' ' :: cs) (.operator op :: ks) := by
  cases op
  case greaterEqual => exact .symbol (w := ['=']) (by decide) rfl (fun _ => rfl) nofun h
  case lessEqual => exact .symbol (w := ['=']) (by decide) rfl (fun _ => rfl) nofun h
  case equal => exact .symbol (w := ['=']) (by decide) rfl (fun _ => rfl) nofun h
  case notEqual => exact .symbol (w := ['=']) (by decide) rfl (fun _ => rfl) nofun h
  all_goals exact .symbol (w := []) (by decide) rfl (fun _ => rfl) nofun h

/-- An operator between spaces. -/
theorem Spells.spaced (op : Operator) (h : Spells cs ks) :
    Spells (' ' :: (op.symbol.toList ++ ' ' :: cs)) (.operator op :: ks) :=
  .gap rfl (.operator op (.gap rfl h))

end Symbols

/-! ## Names -/

/-- Whether text is a name: a letter, and then letters, digits and underscores. -/
def isIdentifier (text : String) : Bool :=
  match text.toList with
  | [] => false
  | c :: cs => isLetter c && cs.all isNameTail

/-- An identifier is read as a name where no word goes on behind it. -/
theorem Spells.name {name : String} (valid : isIdentifier name = true) {cs : List Char}
    {ks : List Kind} (separate : Separate cs) (h : Spells cs ks) :
    Spells (name.toList ++ cs) (.name name :: ks) := by
  have named : String.ofList name.toList = name := String.ofList_toList
  unfold isIdentifier at valid
  split at valid
  · cases valid
  · next c tail same =>
    rw [Bool.and_eq_true, List.all_eq_true] at valid
    obtain ⟨letter, tails⟩ := valid
    have taken : (tail ++ cs).takeWhile isNameTail = tail :=
      takeWhile_append_eq tails fun c same => (separate c same).1
    rw [same] at named ⊢
    refine .word .name (isGap_eq_false (by decide) letter) ?_ (fun _ => ?_)
      (.inl fun _ same => by cases same) h
    · rw [List.cons_append, wordFront?, isDigit_eq_false_of_isLetter letter,
        if_neg Bool.false_ne_true, if_pos letter, taken]
    · rw [Lexeme.kind, named]

/-! ## Numbers -/

/-- No number goes on over the front of these characters. -/
def EndsNumber (cs : List Char) : Prop :=
  ∀ c, cs.head? = some c → c.isDigit = false ∧ c ≠ '.'

/-- What ends every word ends a number. -/
theorem Separate.endsNumber {cs : List Char} (h : Separate cs) : EndsNumber cs :=
  fun c same => ⟨isDigit_eq_false_of_isNameTail (h c same).1, (h c same).2⟩

/-- The digits of a decimal are a whole number word. -/
theorem numberFront_digits (mantissa scale : Nat) {cs : List Char} (ends : EndsNumber cs) :
    numberFront (Decimal.digits mantissa scale ++ cs) = Decimal.digits mantissa scale := by
  have whole : ∀ c ∈ Decimal.wholePart mantissa scale, c.isDigit = true :=
    fun _ => Decimal.isDigit_of_mem_wholePart
  have fraction : ∀ c ∈ Decimal.fractionPart mantissa scale, c.isDigit = true :=
    fun _ => Decimal.isDigit_of_mem_fractionPart
  have ended : ∀ c, cs.head? = some c → c.isDigit = false :=
    fun c same => (ends c same).1
  rw [Decimal.digits_eq]
  by_cases plain : scale = 0
  · subst plain
    rw [if_pos rfl, numberFront, takeWhile_append_eq whole ended, dropWhile_append_eq whole ended]
    split
    · next rest _ => exact absurd rfl (ends '.' rfl).2
    · rfl
  · have point : ∀ rest c, ('.' :: rest).head? = some c → c.isDigit = false := by
      intro rest c same
      obtain rfl : '.' = c := Option.some.inj same
      rfl
    rw [if_neg plain, List.append_assoc, List.cons_append, numberFront,
      takeWhile_append_eq whole (point _), dropWhile_append_eq whole (point _)]
    simp only [takeWhile_append_eq fraction ended]

/-- The digits of a decimal are read as that decimal, with its scale. -/
theorem readNumber?_digits {d : Decimal} (h : d.negative = false) :
    readNumber? (Decimal.digits d.mantissa d.scale) = some d := by
  have whole : ∀ c ∈ Decimal.wholePart d.mantissa d.scale, c.isDigit = true :=
    fun _ => Decimal.isDigit_of_mem_wholePart
  rw [Decimal.digits_eq]
  have point : ∀ rest c, ('.' :: rest).head? = some c → c.isDigit = false := by
    intro rest c same
    obtain rfl : '.' = c := Option.some.inj same
    rfl
  have parts := Decimal.ofDigits?_parts h
  by_cases plain : d.scale = 0
  · have noFraction : Decimal.fractionPart d.mantissa d.scale = [] := by
      rw [← List.length_eq_zero_iff, Decimal.length_fractionPart, plain]
    have ended : (Decimal.wholePart d.mantissa d.scale).dropWhile Char.isDigit = [] := by
      rw [← List.append_nil (Decimal.wholePart d.mantissa d.scale)]
      exact dropWhile_append_eq whole nofun
    rw [noFraction] at parts
    rw [plain] at ended parts
    rw [if_pos plain, readNumber?, ended]
    exact parts
  · rw [if_neg plain, readNumber?, dropWhile_append_eq whole (point _),
      takeWhile_append_eq whole (point _)]
    exact parts

/-- The text of a decimal without a sign is cut off as one word. -/
theorem exists_cut_number {d : Decimal} (h : d.negative = false) {cs : List Char}
    (ends : EndsNumber cs) : ∃ c w, d.text.toList = c :: w ∧ isGap c = false ∧
      wordFront? (c :: w ++ cs) = some (.number, c :: w) ∧
      ∀ position, Lexeme.kind ⟨.number, c :: w, position⟩ = .ok (.number d) := by
  have written : d.text.toList = Decimal.digits d.mantissa d.scale := by
    rw [Decimal.text, h, if_neg Bool.false_ne_true, List.nil_append, String.toList_ofList]
  have front := numberFront_digits d.mantissa d.scale ends
  have read := readNumber?_digits h
  obtain ⟨c, w, same, digit⟩ := Decimal.exists_digits d.mantissa d.scale
  rw [same] at front read
  refine ⟨c, w, written.trans same, isGap_eq_false (by decide) digit, ?_, fun _ => ?_⟩
  · rw [List.cons_append] at front ⊢
    rw [wordFront?, if_pos digit, front]
  · rw [Lexeme.kind, read]

/-- The text of a decimal without a sign spells the decimal. -/
theorem Spells.number {d : Decimal} (h : d.negative = false) {cs : List Char} {ks : List Kind}
    (separate : Separate cs) (noName : ∀ name, ks.head? ≠ some (.name name)) (rest : Spells cs ks) :
    Spells (d.text.toList ++ cs) (.number d :: ks) := by
  obtain ⟨c, w, same, gap, front, kind⟩ := exists_cut_number h separate.endsNumber
  rw [same]
  exact .word .number gap front kind (.inr noName) rest

/-- Between a decimal and a name right behind it a `*` is understood. -/
theorem Spells.scaled {d : Decimal} (h : d.negative = false) {cs : List Char} {name : String}
    {ks : List Kind} (ends : EndsNumber cs) (rest : Spells cs (.name name :: ks)) :
    Spells (d.text.toList ++ cs) (.number d :: .operator .multiply :: .name name :: ks) := by
  obtain ⟨c, w, same, gap, front, kind⟩ := exists_cut_number h ends
  rw [same]
  intro position
  obtain ⟨words, tokens, isCut, read, names⟩ := rest (position + byteLength (c :: w))
  refine ⟨_, ⟨.number d, String.ofList (c :: w), position⟩ :: tokens, cut_word gap front isCut,
    ?_, ?_⟩
  · rw [ofLexemes, kind position, read]
  · obtain ⟨t, behind, rfl, named, _⟩ := Grammar.exists_of_reading names nofun
    have next : startsWithName (t :: behind) = true := by
      rw [startsWithName, Token.isName, named]
    have number : Token.isNumber ⟨.number d, String.ofList (c :: w), position⟩ = true := rfl
    rw [reading, number, next, Bool.true_and, if_pos rfl, names]

/-! ## Whole texts -/

/-- Words become tokens when each one has a kind, which keeps its text and position. -/
theorem ofLexemes_cons_eq_ok {word : Lexeme} {words : List Lexeme} {tokens : List Token} :
    ofLexemes (word :: words) = .ok tokens ↔ ∃ kind rest, word.kind = .ok kind ∧
      ofLexemes words = .ok rest ∧
        tokens = ⟨kind, String.ofList word.spelling, word.position⟩ :: rest := by
  rw [ofLexemes]
  cases word.kind with
  | error fault => simp
  | ok kind =>
    cases ofLexemes words with
    | error fault => simp
    | ok rest => simp [eq_comm]

/-- Every token is of the kind of one of the words. -/
theorem exists_word_of_mem {words : List Lexeme} {tokens : List Token}
    (h : ofLexemes words = .ok tokens) : ∀ t ∈ tokens, ∃ word ∈ words, word.kind = .ok t.kind := by
  induction words generalizing tokens with
  | nil => cases h; exact nofun
  | cons word words ih =>
    obtain ⟨kind, rest, isKind, isRest, rfl⟩ := ofLexemes_cons_eq_ok.1 h
    intro t mem
    rcases List.mem_cons.1 mem with rfl | mem
    · exact ⟨word, List.mem_cons_self, isKind⟩
    · obtain ⟨other, inside, isOther⟩ := ih isRest t mem
      exact ⟨other, List.mem_cons_of_mem word inside, isOther⟩

/-- No word is read as the end token. -/
theorem kind_ne_finish_of_ofLexemes {words : List Lexeme} {tokens : List Token}
    (h : ofLexemes words = .ok tokens) : ∀ t ∈ tokens, t.kind ≠ .finish := by
  intro t mem finish
  obtain ⟨word, -, isKind⟩ := exists_word_of_mem h t mem
  rw [finish] at isKind
  unfold Lexeme.kind at isKind
  split at isKind
  · split at isKind <;> cases isKind
  all_goals cases isKind

/-- The tokens of a text are those of its words and the end token. -/
theorem exists_of_tokenize {text : String} {tokens : List Token}
    (h : tokenize text = .ok tokens) : ∃ words front, cut text.toList 0 = .ok words ∧
      ofLexemes words = .ok front ∧ tokens = front ++ [finishAt (byteLength text.toList)] := by
  rw [tokenize] at h
  split at h
  · cases h
  · next words isCut =>
    split at h
    · cases h
    · next front read =>
      cases h
      exact ⟨words, front, isCut, read, rfl⟩

/-- A spelled text is cut into tokens in front of the end token. -/
theorem Spells.tokenize {text : String} {ks : List Kind} (h : Spells text.toList ks) :
    ∃ tokens last, Token.tokenize text = .ok (tokens ++ [last]) ∧ reading tokens = ks ∧
      (∀ t ∈ tokens, t.kind ≠ .finish) ∧ last.kind = .finish := by
  obtain ⟨words, tokens, isCut, read, same⟩ := h 0
  refine ⟨tokens, finishAt (byteLength text.toList), ?_, same, kind_ne_finish_of_ofLexemes read,
    rfl⟩
  rw [Token.tokenize, isCut]
  simp only [read]

end Reckon.Token
