import Reckon.Proofs.Syntax.Lookahead
import Reckon.Proofs.Token.LongestWord
import Reckon.Value.Atom

/-!
# What atoms of text spell

Whether a minus sign covers a text is decided on its characters, before anything is cut into words.
Parentheses are words of their own, so counting them in the text is counting them among the tokens;
and a run of alphanumeric characters that can be cut at all is a name, a number, or a number with a
name behind it.
-/

namespace Reckon.Token

open Grammar (reading closing)
open Text (isLetter isNameTail isWordPart closesAtEnd isGroup isAtom)

/-! ## One word at a time -/

section

variable {c : Char} {cs : List Char} {ks : List Kind}

/-- Characters that are cut and read at one position are read so everywhere. -/
theorem spells_of_cut {position : Nat} {words : List Lexeme} {tokens : List Token}
    (isCut : cut cs position = .ok words) (read : ofLexemes words = .ok tokens) :
    Spells cs (reading tokens) := by
  have alone := spells_append_of_cut spells_nil endsWord_nil nofun isCut read
  rwa [List.append_nil, List.append_nil] at alone

/-- Behind a gap the same tokens are read. -/
theorem Spells.behind_gap (h : Spells (c :: cs) ks) (gap : isGap c = true) : Spells cs ks := by
  obtain ⟨words, tokens, isCut, read, rfl⟩ := h 0
  rw [cut, if_pos gap] at isCut
  exact spells_of_cut isCut read

/-- A kind in front of others, with the `*` that is understood between a number and a name. -/
inductive Joins (k : Kind) (behind : List Kind) : List Kind → Prop where
  | apart : ((∀ value, k ≠ .number value) ∨ ∀ name, behind.head? ≠ some (.name name)) →
      Joins k behind (k :: behind)
  | scaled {value : Decimal} {name : String} : k = .number value →
      behind.head? = some (.name name) → Joins k behind (k :: .operator .multiply :: behind)

/-- A token is read in front of the reading of the others, with the star that is understood. -/
theorem joins_reading (t : Token) (rest : List Token) :
    Joins t.kind (reading rest) (reading (t :: rest)) := by
  rw [reading]
  cases number : t.isNumber with
  | false =>
    rw [Bool.false_and, if_neg Bool.false_ne_true]
    refine .apart (.inl fun value same => ?_)
    rw [Grammar.isNumber_eq_true same] at number
    cases number
  | true =>
    rw [Bool.true_and]
    split
    · next starts =>
      obtain ⟨name, first⟩ := Grammar.startsWithName_iff.1 starts
      obtain ⟨value, same⟩ : ∃ value, t.kind = .number value := by
        unfold isNumber at number
        split at number
        · next value same => exact ⟨value, same⟩
        · cases number
      exact .scaled same first
    · next noName =>
      exact .apart (.inr fun name first => noName (Grammar.startsWithName_iff.2 ⟨name, first⟩))

/-- A word is cut off at the front of a text that spells something. -/
theorem Spells.exists_word (h : Spells (c :: cs) ks) (noGap : isGap c = false) :
    ∃ shape w behind k others, wordFront? (c :: cs) = some (shape, w) ∧ c :: cs = w ++ behind ∧
      Lexeme.kind ⟨shape, w, 0⟩ = .ok k ∧ Spells behind others ∧ Joins k others ks := by
  obtain ⟨words, tokens, isCut, read, rfl⟩ := h 0
  rw [cut, noGap, if_neg Bool.false_ne_true] at isCut
  split at isCut
  · cases isCut
  · next shape w front =>
    split at isCut
    · cases isCut
    · next others cutOthers =>
      cases isCut
      obtain ⟨k, rest, isKind, isRead, rfl⟩ := ofLexemes_cons_eq_ok.1 read
      obtain ⟨behind, split⟩ := exists_append_of_wordFront? front
      have dropped : (c :: cs).drop w.length = behind := by
        rw [split]
        exact List.drop_left
      rw [dropped] at cutOthers
      exact ⟨shape, w, behind, k, reading rest, front, split, isKind,
        spells_of_cut cutOthers isRead, joins_reading ⟨k, String.ofList w, 0⟩ rest⟩

end

/-! ## Parentheses -/

/-- A token that is no parenthesis does not change where a group closes. -/
theorem closing_of_joins {k : Kind} {behind ks : List Kind} (h : Joins k behind ks) (inner : Nat)
    (left : k ≠ .leftParen) (right : k ≠ .rightParen) :
    closing inner ks = closing inner behind := by
  cases h with
  | apart _ => rw [closing] <;> assumption
  | scaled _ _ => rw [closing, closing] <;> first | assumption | exact nofun

/-- A word of another kind has no parenthesis in it. -/
theorem IsWord.noParen {shape : Shape} {w : List Char} (h : IsWord shape w)
    (left : shape ≠ .leftParen) (right : shape ≠ .rightParen) : ∀ c ∈ w, c ≠ '(' ∧ c ≠ ')' := by
  have digits : ∀ {c : Char}, c.isDigit = true → c ≠ '(' ∧ c ≠ ')' := by
    rintro c digit
    constructor <;> rintro rfl <;> cases digit
  cases h with
  | whole _ all => exact fun c mem => digits (all c mem)
  | fraction _ all places =>
    intro c mem
    rcases List.mem_append.1 mem with mem | mem
    · exact digits (all c mem)
    · rcases List.mem_cons.1 mem with rfl | mem
      · decide
      · exact digits (places c mem)
  | name letter tails =>
    intro c mem
    have tail : isNameTail c = true := by
      rcases List.mem_cons.1 mem with rfl | mem
      · exact isNameTail_iff.2 (.inl letter)
      · exact isNameTail_iff.2 (tails c mem)
    constructor <;> rintro rfl <;> exact absurd tail (by decide)
  | operator op =>
    have none : (op.symbol.toList.all fun c => c != '(' && c != ')') = true := by cases op <;> rfl
    intro c mem
    have other := List.all_eq_true.1 none c mem
    rwa [Bool.and_eq_true, bne_iff_ne, bne_iff_ne] at other
  | leftParen => exact absurd rfl left
  | rightParen => exact absurd rfl right
  | comma => exact List.forall_mem_singleton.2 (by decide)
  | leftBracket => exact List.forall_mem_singleton.2 (by decide)
  | rightBracket => exact List.forall_mem_singleton.2 (by decide)

/-- Characters without parentheses do not change whether a group closes at the end. -/
theorem closesAtEnd_append {w : List Char} (noParen : ∀ c ∈ w, c ≠ '(' ∧ c ≠ ')') (depth : Nat)
    (cs : List Char) : closesAtEnd depth (w ++ cs) = closesAtEnd depth cs := by
  induction w with
  | nil => rfl
  | cons c w ih =>
    obtain ⟨left, right⟩ := noParen c List.mem_cons_self
    rw [List.cons_append, closesAtEnd, ih fun d mem => noParen d (List.mem_cons_of_mem c mem)]
    · exact left
    · exact right

/-- A kind is that of a parenthesis only for the word that is one. -/
theorem ne_paren_of_kind {shape : Shape} {w : List Char} {k : Kind} {position : Nat}
    (h : Lexeme.kind ⟨shape, w, position⟩ = .ok k) :
    (shape ≠ .leftParen → k ≠ .leftParen) ∧ (shape ≠ .rightParen → k ≠ .rightParen) := by
  unfold Lexeme.kind at h
  dsimp only at h
  split at h
  · split at h
    · cases h
      simp
    · cases h
  all_goals cases h; simp

/-- A text that spells something begins with a parenthesis, with a gap or with a word in which there
is no parenthesis. -/
theorem Spells.paren_cases {c : Char} {cs : List Char} {ks : List Kind} (h : Spells (c :: cs) ks) :
    (c = '(' ∧ ∃ others, ks = .leftParen :: others ∧ Spells cs others) ∨
      (c = ')' ∧ ∃ others, ks = .rightParen :: others ∧ Spells cs others) ∨
        ∃ w behind others, c :: cs = w ++ behind ∧ w ≠ [] ∧ (∀ d ∈ w, d ≠ '(' ∧ d ≠ ')') ∧
          Spells behind others ∧ ∀ inner, closing inner ks = closing inner others := by
  cases gap : isGap c with
  | true =>
    have noParen : ∀ d ∈ [c], d ≠ '(' ∧ d ≠ ')' := by
      intro d mem
      obtain rfl := List.mem_singleton.1 mem
      constructor <;> rintro rfl <;> cases gap
    exact .inr (.inr ⟨[c], cs, ks, rfl, List.cons_ne_nil c [], noParen, h.behind_gap gap,
      fun _ => rfl⟩)
  | false =>
    obtain ⟨shape, w, behind, k, others, front, split, isKind, spells, joins⟩ := h.exists_word gap
    have isWord := isWord_of_wordFront? front
    by_cases left : shape = .leftParen
    · subst left
      cases isWord
      cases isKind
      obtain ⟨rfl, rfl⟩ := List.cons.inj split
      cases joins with
      | scaled number _ => cases number
      | apart _ => exact .inl ⟨rfl, others, rfl, spells⟩
    · by_cases right : shape = .rightParen
      · subst right
        cases isWord
        cases isKind
        obtain ⟨rfl, rfl⟩ := List.cons.inj split
        cases joins with
        | scaled number _ => cases number
        | apart _ => exact .inr (.inl ⟨rfl, others, rfl, spells⟩)
      · have kinds := ne_paren_of_kind isKind
        exact .inr (.inr ⟨w, behind, others, split, wordFront?_ne_nil front,
          isWord.noParen left right, spells,
          fun inner => closing_of_joins joins inner (kinds.1 left) (kinds.2 right)⟩)

/-- If the parenthesis that closes the one just opened is the last character, nothing is read behind
it. -/
theorem Spells.closing_eq {cs : List Char} {ks : List Kind} (h : Spells cs ks) {inner : Nat}
    (closed : closesAtEnd (inner + 1) cs = true) : closing inner ks = some [] := by
  induction size : cs.length using Nat.strongRecOn generalizing cs ks inner with
  | ind size' ih =>
    cases cs with
    | nil => cases closed
    | cons c cs =>
      have shorter : cs.length < size' := by
        rw [← size, List.length_cons]
        omega
      obtain ⟨rfl, others, rfl, spells⟩ | ⟨rfl, others, rfl, spells⟩ |
        ⟨w, behind, others, split, nonempty, noParen, spells, same⟩ := h.paren_cases
      · rw [closesAtEnd] at closed
        rw [closing]
        exact ih _ shorter spells closed rfl
      · rw [closesAtEnd] at closed
        cases inner with
        | zero =>
          rw [if_pos (by omega), List.isEmpty_iff] at closed
          subst closed
          rw [closing, eq_nil_of_spells_nil spells]
        | succ inner =>
          rw [if_neg (by omega)] at closed
          rw [closing]
          exact ih _ shorter spells closed rfl
      · have front : 0 < w.length := List.length_pos_iff.2 nonempty
        have less : behind.length < size' := by
          rw [← size, split, List.length_append]
          omega
        rw [split, closesAtEnd_append noParen] at closed
        rw [same]
        exact ih _ less spells closed rfl

/-! ## Words -/

/-- Behind a word of text stands nothing, or a parenthesis that is closed at the end of the text. -/
inductive EndsAtom : List Kind → Prop where
  | none : EndsAtom []
  | group {ks : List Kind} : closing 0 ks = some [] → EndsAtom (.leftParen :: ks)

/-- What an atom of text spells. -/
inductive AtomKinds : List Kind → Prop where
  | group {ks : List Kind} : closing 0 ks = some [] → AtomKinds (.leftParen :: ks)
  | name {text : String} {ks : List Kind} : EndsAtom ks → AtomKinds (.name text :: ks)
  | number {value : Decimal} {ks : List Kind} : EndsAtom ks → AtomKinds (.number value :: ks)
  /-- A `*` is understood between the number and the name. -/
  | scaled {value : Decimal} {text : String} {ks : List Kind} : EndsAtom ks →
      AtomKinds (.number value :: .operator .multiply :: .name text :: ks)

section

variable {c : Char} {u cs rest : List Char} {ks : List Kind}

/-- No word of text is a symbol. -/
theorem symbolFront?_of_isWordPart (part : isWordPart c = true) (cs : List Char) :
    symbolFront? (c :: cs) = none := by
  have apart : ∀ d : Char, isWordPart d = false → c ≠ d := by
    rintro d noPart rfl
    rw [noPart] at part
    cases part
  unfold symbolFront?
  split
  case h_18 => rfl
  all_goals next same => exact absurd (List.cons.inj same).1 (apart _ (by decide +kernel))

/-- Where a word of text is cut, it begins with a digit or a letter. -/
theorem Spells.isDigit_or_isLetter (h : Spells (c :: cs) ks) (part : isWordPart c = true) :
    c.isDigit = true ∨ isLetter c = true := by
  have noGap : isGap c = false := isGap_eq_false (by decide +kernel) part
  obtain ⟨shape, w, _, _, _, front, -⟩ := h.exists_word noGap
  rw [wordFront?, symbolFront?_of_isWordPart part] at front
  split at front
  · next digit => exact .inl digit
  · split at front
    · next letter => exact .inr letter
    · cases front

/-- Nothing, or one parenthesized group. -/
def IsAtomEnd (cs : List Char) : Prop :=
  cs = [] ∨ isGroup cs = true

/-- A group is an opening parenthesis whose match closes the text. -/
theorem exists_group (h : isGroup cs = true) :
    ∃ inside, cs = '(' :: inside ∧ closesAtEnd 1 inside = true := by
  unfold isGroup at h
  split at h
  · next inside => exact ⟨inside, rfl, h⟩
  · cases h

/-- A group spells an opening parenthesis and what its match closes. -/
theorem Spells.closing_group (h : Spells cs ks) (group : isGroup cs = true) :
    ∃ behind, ks = .leftParen :: behind ∧ closing 0 behind = some [] := by
  obtain ⟨inside, rfl, closed⟩ := exists_group group
  obtain ⟨shape, w, behind, k, others, front, split, isKind, spells, joins⟩ :=
    h.exists_word (by decide)
  cases front
  cases split
  cases isKind
  cases joins with
  | apart _ => exact ⟨others, rfl, spells.closing_eq closed⟩
  | scaled number _ => cases number

/-- What ends an atom of text spells nothing or a group. -/
theorem Spells.endsAtom (h : Spells cs ks) (ends : IsAtomEnd cs) : EndsAtom ks := by
  rcases ends with rfl | group
  · rw [eq_nil_of_spells_nil h]
    exact .none
  · obtain ⟨behind, rfl, closed⟩ := h.closing_group group
    exact .group closed

/-- What ends an atom does not begin inside one of its words. -/
theorem isAtomEnd_behind {w behind : List Char} (noParen : ∀ d ∈ w, d ≠ '(' ∧ d ≠ ')')
    (ends : IsAtomEnd ((w ++ behind).dropWhile isWordPart)) :
    IsAtomEnd (behind.dropWhile isWordPart) := by
  rw [List.dropWhile_append] at ends
  split at ends
  · exact ends
  · next inside =>
    obtain ⟨d, tail, left⟩ := List.exists_cons_of_ne_nil (mt List.isEmpty_iff.2 inside)
    have mem : d ∈ w := (List.dropWhile_suffix isWordPart).subset (left ▸ List.mem_cons_self)
    rw [left, List.cons_append] at ends
    rcases ends with none | group
    · cases none
    · obtain ⟨_, same, -⟩ := exists_group group
      exact absurd (List.cons.inj same).1 (noParen d mem).1

/-- Where no word of text goes on, the atom ends. -/
theorem Spells.endsAtom_of_head (h : Spells cs ks) (ends : IsAtomEnd (cs.dropWhile isWordPart))
    (noWord : ∀ d, cs.head? = some d → d.isDigit = false ∧ isLetter d = false) : EndsAtom ks := by
  refine h.endsAtom ?_
  cases cs with
  | nil => exact .inl rfl
  | cons d tail =>
    cases part : isWordPart d with
    | false =>
      rwa [List.dropWhile_cons_of_neg (Bool.eq_false_iff.1 part)] at ends
    | true =>
      have plain := noWord d rfl
      rcases h.isDigit_or_isLetter part with digit | letter
      · rw [plain.1] at digit
        cases digit
      · rw [plain.2] at letter
        cases letter

/-- A letter at the front is that of a name, and behind the name the atom ends. -/
theorem Spells.exists_name (h : Spells (c :: cs) ks) (letter : isLetter c = true)
    (ends : IsAtomEnd ((c :: cs).dropWhile isWordPart)) :
    ∃ text behind, ks = .name text :: behind ∧ EndsAtom behind := by
  have noGap : isGap c = false := isGap_eq_false (by decide) letter
  obtain ⟨shape, w, behind, k, others, front, split, isKind, spells, joins⟩ := h.exists_word noGap
  have noParen := isWord_of_wordFront? front
  rw [wordFront?, isDigit_eq_false_of_isLetter letter, if_neg Bool.false_ne_true,
    if_pos letter] at front
  cases front
  cases isKind
  rw [split] at ends
  have after : behind = cs.dropWhile isNameTail := by
    rw [List.cons_append, List.cons_inj_right] at split
    exact List.append_cancel_left (split.symm.trans List.takeWhile_append_dropWhile.symm)
  cases joins with
  | scaled number _ => cases number
  | apart _ =>
    refine ⟨_, others, rfl, spells.endsAtom_of_head
      (isAtomEnd_behind (noParen.noParen (by decide) (by decide)) ends) fun d first => ?_⟩
    rw [after] at first
    have noTail : isNameTail d = false := by
      have ended := List.head?_dropWhile_not isNameTail cs
      rwa [first] at ended
    rw [isNameTail, Bool.or_eq_false_iff, Bool.or_eq_false_iff] at noTail
    exact ⟨noTail.1.2, noTail.1.1⟩

/-- No digit stands behind a number that is cut off. -/
theorem isDigit_behind_numberFront {behind : List Char} (split : cs = numberFront cs ++ behind)
    {d : Char} (first : behind.head? = some d) : d.isDigit = false := by
  have ended : ∀ {front : List Char}, (front.dropWhile Char.isDigit).head? = some d →
      d.isDigit = false := by
    intro front first
    have noDigit := List.head?_dropWhile_not Char.isDigit front
    rwa [first] at noDigit
  rw [numberFront] at split
  split at split
  · next fraction point =>
    have whole : cs.takeWhile Char.isDigit ++ '.' :: fraction.takeWhile Char.isDigit ++
        fraction.dropWhile Char.isDigit = cs := by
      rw [List.append_assoc, List.cons_append, List.takeWhile_append_dropWhile, ← point,
        List.takeWhile_append_dropWhile]
    have same := List.append_cancel_left (split.symm.trans whole.symm)
    rw [same] at first
    exact ended first
  · have same := List.append_cancel_left (split.symm.trans List.takeWhile_append_dropWhile.symm)
    rw [same] at first
    exact ended first

/-- A digit at the front is that of a number, and behind the number a name may follow. -/
theorem Spells.atomKinds_of_isDigit (h : Spells (c :: cs) ks) (digit : c.isDigit = true)
    (ends : IsAtomEnd ((c :: cs).dropWhile isWordPart)) : AtomKinds ks := by
  have noGap : isGap c = false := isGap_eq_false (by decide) digit
  obtain ⟨shape, w, behind, k, others, front, split, isKind, spells, joins⟩ := h.exists_word noGap
  have noParen := isWord_of_wordFront? front
  rw [wordFront?, if_pos digit] at front
  cases front
  obtain ⟨value, rfl⟩ : ∃ value, k = .number value := by
    simp only [Lexeme.kind] at isKind
    split at isKind <;> cases isKind
    exact ⟨_, rfl⟩
  rw [split] at ends
  have left := isAtomEnd_behind (noParen.noParen (by decide) (by decide)) ends
  cases behind with
  | nil =>
    obtain rfl := eq_nil_of_spells_nil spells
    cases joins with
    | apart _ => exact .number .none
    | scaled _ named => cases named
  | cons d tail =>
    have noDigit : d.isDigit = false := isDigit_behind_numberFront split rfl
    cases letter : isLetter d with
    | true =>
      obtain ⟨text, after, rfl, last⟩ := spells.exists_name letter left
      cases joins with
      | apart noName =>
        rcases noName with noNumber | noName
        · exact absurd rfl (noNumber value)
        · exact absurd rfl (noName text)
      | scaled _ _ => exact .scaled last
    | false =>
      have last : EndsAtom others := spells.endsAtom_of_head left fun e first => by
        obtain rfl : d = e := Option.some.inj first
        exact ⟨noDigit, letter⟩
      cases joins with
      | apart _ => exact .number last
      | scaled _ named =>
        cases last <;> cases named

/-- What an atom of text spells, if it can be cut. -/
theorem Spells.atomKinds (h : Spells cs ks) (atom : isAtom cs = true) : AtomKinds ks := by
  rw [isAtom] at atom
  split at atom
  · obtain ⟨behind, rfl, closed⟩ := h.closing_group atom
    exact .group closed
  · next begins =>
    have ends : IsAtomEnd (cs.dropWhile isWordPart) := by
      rw [Bool.or_eq_true, List.isEmpty_iff] at atom
      exact atom
    cases cs with
    | nil => exact absurd rfl begins
    | cons c cs =>
      have part : isWordPart c = true := by
        by_contra noPart
        rw [List.dropWhile_cons_of_neg noPart] at begins
        exact begins rfl
      rcases h.isDigit_or_isLetter part with digit | letter
      · exact h.atomKinds_of_isDigit digit ends
      · obtain ⟨text, behind, rfl, last⟩ := h.exists_name letter ends
        exact .name last

end

end Reckon.Token
