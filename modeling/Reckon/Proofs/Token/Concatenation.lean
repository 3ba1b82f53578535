import Reckon.Proofs.Syntax.Acceptance
import Reckon.Proofs.Token.Spelling

/-!
# Texts one after the other

A text that is cut into words is cut into the same words in front of another text, if nothing at the
front of that text goes on with the last word. So the two together spell what each of them spells.
-/

namespace Reckon.Token

open Grammar (reading)
open Text (isLetter isNameTail)

/-- No word of any shape goes on over the front of these characters. -/
structure EndsWord (cs : List Char) : Prop where
  separate : Separate cs
  noEquals : cs.head? ≠ some '='

/-- The end of the text ends every word. -/
theorem endsWord_nil : EndsWord [] :=
  ⟨separate_nil, nofun⟩

/-- A character of no name, other than a point or an equals sign, ends a word. -/
theorem endsWord_gap {c : Char} (cs : List Char) (gap : isNameTail c = false) (point : c ≠ '.')
    (equals : c ≠ '=') : EndsWord (c :: cs) :=
  ⟨separate_cons cs gap point, fun same => equals (Option.some.inj same)⟩

section Runs

variable {p : Char → Bool} {cs : List Char}

/-- A run ends in front of a character of another class at the latest. -/
theorem takeWhile_append_of_ended (ended : ∀ c, cs.head? = some c → p c = false) :
    ∀ front : List Char, (front ++ cs).takeWhile p = front.takeWhile p
  | [] => takeWhile_append_eq nofun ended
  | c :: front => by
    rw [List.cons_append, List.takeWhile_cons, List.takeWhile_cons,
      takeWhile_append_of_ended ended front]

/-- Dropping what passes a test stops where it would, with more behind it that does not pass. -/
theorem dropWhile_append_of_ended (ended : ∀ c, cs.head? = some c → p c = false) :
    ∀ front : List Char, (front ++ cs).dropWhile p = front.dropWhile p ++ cs
  | [] => dropWhile_append_eq nofun ended
  | c :: front => by
    rw [List.cons_append, List.dropWhile_cons, List.dropWhile_cons,
      dropWhile_append_of_ended ended front]
    split <;> rfl

end Runs

/-! ## The word at the front -/

/-- More text behind a number does not lengthen it. -/
theorem numberFront_append {cs rest : List Char} (ends : EndsNumber rest) :
    numberFront (cs ++ rest) = numberFront cs := by
  have ended : ∀ c, rest.head? = some c → c.isDigit = false := fun c same => (ends c same).1
  rw [numberFront, numberFront, takeWhile_append_of_ended ended, dropWhile_append_of_ended ended]
  cases cs.dropWhile Char.isDigit with
  | nil =>
    rw [List.nil_append]
    split
    · next behind => exact absurd rfl (ends '.' rfl).2
    · rfl
  | cons c behind =>
    by_cases point : c = '.'
    · subst point
      simp only [List.cons_append, takeWhile_append_of_ended ended]
    · rw [List.cons_append]
      split
      · next same => exact absurd (List.cons.inj same).1 point
      · split
        · next same => exact absurd (List.cons.inj same).1 point
        · rfl

/-- A symbol is the front of what it is cut off from. -/
theorem exists_append_of_symbolFront? {cs : List Char} {word : Shape × List Char}
    (h : symbolFront? cs = some word) : ∃ behind, cs = word.2 ++ behind := by
  unfold symbolFront? at h
  split at h <;> cases h <;> exact ⟨_, rfl⟩

/-- More text behind a symbol does not change it. -/
theorem symbolFront?_append {cs rest : List Char} {word : Shape × List Char}
    (ends : rest.head? ≠ some '=') (h : symbolFront? cs = some word) :
    symbolFront? (cs ++ rest) = some word := by
  have single : ∀ {tail : List Char}, (∀ behind, tail = '=' :: behind → False) →
      ∀ behind, tail ++ rest = '=' :: behind → False := by
    intro tail noEquals behind same
    cases tail with
    | nil => exact ends (by rw [← List.nil_append rest, same]; rfl)
    | cons c tail => exact noEquals tail (by rw [(List.cons.inj same).1])
  unfold symbolFront? at h
  split at h <;> cases h
  -- Only a symbol that is the beginning of another one looks at what follows it.
  case h_10 noEquals => rw [List.cons_append, symbolFront?]; exact single noEquals
  case h_11 noEquals => rw [List.cons_append, symbolFront?]; exact single noEquals
  case h_12 noEquals => rw [List.cons_append, symbolFront?]; exact single noEquals
  all_goals rfl

/-- A number at the front is followed by the other characters. -/
theorem exists_append_of_numberFront (cs : List Char) :
    ∃ behind, cs = numberFront cs ++ behind := by
  have parts : cs.takeWhile Char.isDigit ++ cs.dropWhile Char.isDigit = cs :=
    List.takeWhile_append_dropWhile
  rw [numberFront]
  split
  · next fraction same =>
    refine ⟨fraction.dropWhile Char.isDigit, ?_⟩
    rw [List.append_assoc, List.cons_append, List.takeWhile_append_dropWhile, ← same, parts]
  · exact ⟨_, parts.symm⟩

/-- A word is the front of what it is cut off from. -/
theorem exists_append_of_wordFront? {cs : List Char} {word : Shape × List Char}
    (h : wordFront? cs = some word) : ∃ behind, cs = word.2 ++ behind := by
  cases cs with
  | nil => cases h
  | cons c cs =>
    rw [wordFront?] at h
    split at h
    · cases h
      exact exists_append_of_numberFront (c :: cs)
    · split at h
      · cases h
        exact ⟨cs.dropWhile isNameTail, by rw [List.cons_append, List.takeWhile_append_dropWhile]⟩
      · exact exists_append_of_symbolFront? h

/-- The same word is cut off where more text follows. -/
theorem wordFront?_append {cs rest : List Char} {word : Shape × List Char} (ends : EndsWord rest)
    (h : wordFront? cs = some word) : wordFront? (cs ++ rest) = some word := by
  cases cs with
  | nil => cases h
  | cons c cs =>
    rw [wordFront?] at h
    rw [List.cons_append, wordFront?]
    split at h
    · next digit =>
      cases h
      rw [if_pos digit, ← List.cons_append, numberFront_append ends.separate.endsNumber]
    · next noDigit =>
      rw [if_neg noDigit]
      split at h
      · next letter =>
        cases h
        rw [if_pos letter,
          takeWhile_append_of_ended fun c same => (ends.separate c same).1]
      · next noLetter =>
        rw [if_neg noLetter, ← List.cons_append]
        exact symbolFront?_append ends.noEquals h

/-! ## All words -/

/-- Where a word stands does not matter for its kind. -/
theorem kind_of_position {shape : Shape} {spelling : List Char} {position : Nat} {k : Kind}
    (h : Lexeme.kind ⟨shape, spelling, position⟩ = .ok k) (position' : Nat) :
    Lexeme.kind ⟨shape, spelling, position'⟩ = .ok k := by
  unfold Lexeme.kind at h ⊢
  dsimp only at h ⊢
  split at h
  · split at h
    · exact h
    · cases h
  all_goals exact h

/-- A token reads as it does alone where the tokens behind it read as they do alone, in front of
anything but a name. -/
theorem reading_cons_append {t t' : Token} {tokens tokens' : List Token} {ks : List Kind}
    (kind : t'.kind = t.kind) (same : reading tokens' = reading tokens ++ ks)
    (noName : ∀ name, ks.head? ≠ some (.name name)) :
    reading (t' :: tokens') = reading (t :: tokens) ++ ks := by
  have number : t'.isNumber = t.isNumber := by rw [Token.isNumber, Token.isNumber, kind]
  have starts : startsWithName tokens' = startsWithName tokens := by
    rw [Bool.eq_iff_iff, Grammar.startsWithName_iff, Grammar.startsWithName_iff, same]
    cases isReading : reading tokens with
    | nil => exact ⟨fun ⟨name, named⟩ => absurd named (noName name), nofun⟩
    | cons k behind => rfl
  rw [reading, reading, number, starts, kind, same]
  split <;> rfl

/-- The words of a text spell the same in front of another text, wherever they stand. -/
theorem spells_append_of_cut {rest : List Char} {ks : List Kind} (spells : Spells rest ks)
    (ends : EndsWord rest) (noName : ∀ name, ks.head? ≠ some (.name name)) {cs : List Char}
    {position : Nat} {words : List Lexeme} {tokens : List Token}
    (isCut : cut cs position = .ok words) (read : ofLexemes words = .ok tokens) :
    Spells (cs ++ rest) (reading tokens ++ ks) := by
  fun_induction cut cs position generalizing words tokens with
  | case1 => cases isCut; cases read; exact spells
  | case2 position c behind gap ih => exact .gap gap (ih isCut read)
  | case3 => cases isCut
  | case4 => cases isCut
  | case5 position c behind noGap shape spelling front others cutOthers ih =>
    cases isCut
    obtain ⟨kind, tokens, isKind, isRead, rfl⟩ := ofLexemes_cons_eq_ok.1 read
    obtain ⟨dropped, same⟩ := exists_append_of_wordFront? front
    obtain ⟨d, w, rfl⟩ := List.exists_cons_of_ne_nil (wordFront?_ne_nil front)
    obtain ⟨rfl, rfl⟩ : c = d ∧ behind = w ++ dropped := List.cons.inj same
    have after : (c :: (w ++ dropped)).drop (c :: w).length = dropped := by
      rw [← List.cons_append, List.drop_left]
    have joined : c :: (w ++ dropped) ++ rest = c :: w ++ (dropped ++ rest) := by
      rw [List.cons_append, List.cons_append, List.append_assoc]
    have again := wordFront?_append ends front
    rw [joined] at again ⊢
    rw [after] at ih cutOthers
    intro position'
    obtain ⟨words', tokens', isCut', read', reads⟩ :=
      ih cutOthers isRead (position' + byteLength (c :: w))
    refine ⟨⟨shape, c :: w, position'⟩ :: words',
      ⟨kind, String.ofList (c :: w), position'⟩ :: tokens', ?_, ?_,
      reading_cons_append rfl reads noName⟩
    · exact cut_word (eq_false_of_ne_true noGap) again isCut'
    · exact ofLexemes_cons_eq_ok.2 ⟨kind, tokens', kind_of_position isKind position', read', rfl⟩

/-- Two texts one after the other spell what each of them spells. -/
theorem Spells.append {cs rest : List Char} {front ks : List Kind} (h : Spells cs front)
    (behind : Spells rest ks) (ends : EndsWord rest)
    (noName : ∀ name, ks.head? ≠ some (.name name)) : Spells (cs ++ rest) (front ++ ks) := by
  obtain ⟨words, tokens, isCut, read, rfl⟩ := h 0
  exact spells_append_of_cut behind ends noName isCut read

/-- What a text is read as from its beginning, it spells wherever it stands. -/
theorem spells_of_tokenize {text : String} {tokens : List Token} (h : tokenize text = .ok tokens) :
    Spells text.toList (reading (Grammar.ahead tokens)) := by
  obtain ⟨words, front, isCut, read, rfl⟩ := exists_of_tokenize h
  rw [Grammar.ahead_append_finish (kind_ne_finish_of_ofLexemes read) rfl]
  have alone := spells_append_of_cut spells_nil endsWord_nil nofun isCut read
  rw [List.append_nil, List.append_nil] at alone
  exact alone

end Reckon.Token
