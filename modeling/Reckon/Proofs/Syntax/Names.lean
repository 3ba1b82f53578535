import Reckon.Expr.Parser
import Reckon.Proofs.Syntax.Acceptance
import Reckon.Proofs.Token.Spelling

/-!
# Names in parsed trees

A parsed tree calls everything by names that can be read again, and none of its variables carries a
monomial: only other ways of making trees bring monomials in. So any part of a parsed tree may be
written down by name.
-/

namespace Reckon

namespace Expr

open Token (isIdentifier)

mutual

/-- Whether variables and calls have names that can be read, and no variable carries a monomial. -/
def isNamed : Expr → Bool
  | .number _ => true
  | .variable name term => term.isNone && isIdentifier name
  | .signed _ operand => operand.isNamed
  | .binary _ left right => left.isNamed && right.isNamed
  | .vector items => areNamed items
  | .matrix columns => areNamed columns
  | .definition _ _ body => body.isNamed
  | .call name args => isIdentifier name && areNamed args

/-- Whether variables and calls in some trees have names that can be read. -/
def areNamed : List Expr → Bool
  | [] => true
  | e :: es => e.isNamed && areNamed es

end

/-- Some trees are named exactly when each of them is. -/
theorem areNamed_iff {es : List Expr} : areNamed es = true ↔ ∀ e ∈ es, e.isNamed = true := by
  induction es with
  | nil => simp [areNamed]
  | cons e es ih => simp [areNamed, ih]

end Expr

namespace Token

/-! ## Names of tokens -/

/-- Letters and name characters make a name. -/
theorem isIdentifier_ofList {c : Char} {cs : List Char} (letter : Text.isLetter c = true)
    (tails : ∀ d ∈ cs, Text.isNameTail d = true) :
    isIdentifier (String.ofList (c :: cs)) = true := by
  rw [isIdentifier, String.toList_ofList]
  simp only [letter, Bool.true_and, List.all_eq_true]
  exact tails

/-- A symbol is never taken for a name. -/
theorem symbolFront?_shape_ne {cs w : List Char} : symbolFront? cs ≠ some (.name, w) := by
  unfold symbolFront?
  split <;> exact nofun

/-- What is cut off as a name can be read again as one. -/
theorem isIdentifier_of_wordFront? {cs w : List Char} (h : wordFront? cs = some (.name, w)) :
    isIdentifier (String.ofList w) = true := by
  cases cs with
  | nil => cases h
  | cons c cs =>
    rw [wordFront?] at h
    split at h
    · cases h
    · split at h
      · next letter =>
        cases h
        have tails : ∀ d ∈ cs.takeWhile Text.isNameTail, Text.isNameTail d = true :=
          fun _ mem => List.all_eq_true.1 List.all_takeWhile _ mem
        exact isIdentifier_ofList letter tails
      · exact absurd h symbolFront?_shape_ne

/-- Words of the shape of a name spell names. -/
theorem isIdentifier_of_cut {cs : List Char} {position : Nat} {words : List Lexeme}
    (h : cut cs position = .ok words) :
    ∀ word ∈ words, word.shape = .name → isIdentifier (String.ofList word.spelling) = true := by
  fun_induction cut cs position generalizing words with
  | case1 => cases h; exact nofun
  | case2 _ _ _ _ ih => exact ih h
  | case3 => cases h
  | case4 => cases h
  | case5 position c rest gap shape spelling front others isCut ih =>
    cases h
    intro word mem named
    rcases List.mem_cons.1 mem with rfl | mem
    · have shaped : shape = .name := named
      exact isIdentifier_of_wordFront? (shaped ▸ front)
    · exact ih isCut word mem named

/-- A word that is read as a name has the shape of one. -/
theorem eq_of_kind_eq_name {word : Lexeme} {name : String} (h : word.kind = .ok (.name name)) :
    word.shape = .name ∧ name = String.ofList word.spelling := by
  unfold Lexeme.kind at h
  split at h
  · split at h <;> cases h
  · next shaped => cases h; exact ⟨shaped, rfl⟩
  all_goals cases h

/-- The names among the tokens of a text can be read again. -/
theorem isIdentifier_of_tokenize {text : String} {tokens : List Token}
    (h : tokenize text = .ok tokens) :
    ∀ t ∈ tokens, ∀ name, t.kind = .name name → isIdentifier name = true := by
  obtain ⟨words, front, isCut, read, rfl⟩ := exists_of_tokenize h
  intro t mem name named
  rcases List.mem_append.1 mem with mem | mem
  · obtain ⟨word, inside, isKind⟩ := exists_word_of_mem read t mem
    obtain ⟨shaped, rfl⟩ := eq_of_kind_eq_name (named ▸ isKind)
    exact isIdentifier_of_cut isCut word inside shaped
  · rw [List.mem_singleton.1 mem] at named
    cases named

end Token

namespace Grammar

open Token (Kind isIdentifier)

/-! ## Names of trees -/

/-- All names among the kinds of tokens can be read again. -/
def Named (ks : List Kind) : Prop :=
  ∀ name, .name name ∈ ks → isIdentifier name = true

/-- Tokens whose names can be read again are read as such names. -/
theorem named_reading {tokens : List Token}
    (h : ∀ t ∈ tokens, ∀ name, t.kind = .name name → isIdentifier name = true) :
    Named (reading tokens) := by
  induction tokens with
  | nil => exact nofun
  | cons t tokens ih =>
    have others := ih fun other mem => h other (List.mem_cons_of_mem t mem)
    intro name mem
    have first : t.kind = .name name → isIdentifier name = true :=
      fun same => h t List.mem_cons_self name same
    rw [reading] at mem
    split at mem
    · simp only [List.mem_cons, reduceCtorEq, false_or] at mem
      exact mem.elim (fun same => first same.symm) (others name)
    · rw [List.mem_cons] at mem
      exact mem.elim (fun same => first same.symm) (others name)

/-- The names behind the first token can be read again. -/
theorem Named.tail {k : Kind} {ks : List Kind} (h : Named (k :: ks)) : Named ks :=
  fun name mem => h name (List.mem_cons_of_mem k mem)

/-- The names at the end of the tokens can be read again. -/
theorem Named.right {ks ks' : List Kind} (h : Named (ks ++ ks')) : Named ks' :=
  fun name mem => h name (List.mem_append_right ks mem)

/-- A name in front can be read again. -/
theorem Named.head {name : String} {ks : List Kind} (h : Named (.name name :: ks)) :
    isIdentifier name = true :=
  h name List.mem_cons_self

/-- The variable of an identifier is named. -/
theorem isNamed_plain {name : String} (h : isIdentifier name = true) :
    (Expr.plain name).isNamed = true := by
  rw [Expr.plain, Expr.isNamed, h]
  rfl

/-- An operation on named trees is named. -/
theorem isNamed_binary {op : Operator} {left right : Expr} (hl : left.isNamed = true)
    (hr : right.isNamed = true) : (Expr.binary op left right).isNamed = true := by
  rw [Expr.isNamed, hl, hr]
  rfl

/-- A named tree in front of named ones leaves them all named. -/
theorem areNamed_cons {e : Expr} {es : List Expr} (h : e.isNamed = true)
    (hs : Expr.areNamed es = true) : Expr.areNamed (e :: es) = true := by
  rw [Expr.areNamed, h, hs]
  rfl

/-- A call of an identifier with named arguments is named. -/
theorem isNamed_call {name : String} {args : List Expr} (h : isIdentifier name = true)
    (hs : Expr.areNamed args = true) : (Expr.call name args).isNamed = true := by
  rw [Expr.isNamed, h, hs]
  rfl

mutual

/-- A tree that is read takes its names from the tokens. -/
theorem Phrase.isNamed : ∀ {depth level : Nat} {ks rest : List Kind} {e : Expr},
    Phrase depth level ks e rest → Named ks → e.isNamed = true ∧ Named rest
  | _, _, _, _, _, .tighter _ phrase, h => phrase.isNamed h
  | _, _, _, _, _, .joined _ left right, h =>
    have first := left.isNamed h
    have second := right.isNamed first.2.tail
    ⟨isNamed_binary first.1 second.1, second.2⟩
  | _, _, _, _, _, .signed phrase, h => phrase.isNamed h.tail
  | _, _, _, _, _, .number, h => ⟨rfl, h.tail⟩
  | _, _, _, _, _, .name _, h => ⟨isNamed_plain h.head, h.tail⟩
  | _, _, _, _, _, .parenthesized whole, h =>
    have inner := whole.isNamed h.tail
    ⟨inner.1, inner.2.tail⟩
  | _, _, _, _, _, .definition body, h => body.isNamed h.tail.tail.right.tail.tail
  | _, _, _, _, _, .call args _, h =>
    have list := args.areNamed h.tail.tail
    ⟨isNamed_call h.head list.1, list.2⟩
  | _, _, _, _, _, .matrix columns _, h => columns.areNamed h

/-- An expression that is read takes its names from the tokens. -/
theorem Whole.isNamed : ∀ {depth : Nat} {ks rest : List Kind} {e : Expr},
    Whole depth ks e rest → Named ks → e.isNamed = true ∧ Named rest
  | _, _, _, _, .intro phrase _, h => phrase.isNamed h

/-- Arguments that are read take their names from the tokens. -/
theorem Arguments.areNamed : ∀ {depth : Nat} {ks rest : List Kind} {args : List Expr},
    Arguments depth ks args rest → Named ks → Expr.areNamed args = true ∧ Named rest
  | _, _, _, _, .none, h => ⟨rfl, h.tail⟩
  | _, _, _, _, .last whole, h =>
    have only := whole.isNamed h
    ⟨areNamed_cons only.1 rfl, only.2.tail⟩
  | _, _, _, _, .more whole args, h =>
    have first := whole.isNamed h
    have others := args.areNamed first.2.tail
    ⟨areNamed_cons first.1 others.1, others.2⟩

/-- Elements that are read take their names from the tokens. -/
theorem Elements.areNamed : ∀ {depth : Nat} {ks rest : List Kind} {items : List Expr},
    Elements depth ks items rest → Named ks → Expr.areNamed items = true ∧ Named rest
  | _, _, _, _, .none, h => ⟨rfl, h.tail⟩
  | _, _, _, _, .plain whole items, h =>
    have first := whole.isNamed h
    have others := items.areNamed first.2
    ⟨areNamed_cons first.1 others.1, others.2⟩
  | _, _, _, _, .comma whole items, h =>
    have first := whole.isNamed h
    have others := items.areNamed first.2.tail
    ⟨areNamed_cons first.1 others.1, others.2⟩

/-- Columns that are read take their names from the tokens. -/
theorem Columns.areNamed : ∀ {depth : Nat} {ks rest : List Kind} {columns : List Expr},
    Columns depth ks columns rest → Named ks → Expr.areNamed columns = true ∧ Named rest
  | _, _, _, _, .none, h => ⟨rfl, h⟩
  | _, _, _, _, .more items columns, h =>
    have first := items.areNamed h.tail
    have others := columns.areNamed first.2
    ⟨areNamed_cons first.1 others.1, others.2⟩

end

end Grammar

/-- A parsed tree has names that can be read again. -/
theorem Expr.isNamed_of_parse {maxDepth : Nat} {text : String} {e : Expr}
    (h : Expr.parse maxDepth text = .ok e) : e.isNamed = true := by
  rw [Expr.parse] at h
  split at h
  · cases h
  · next tokens isCut =>
    have whole := (Grammar.ofTokens_eq_ok_iff.1 h).1
    have valid := Token.isIdentifier_of_tokenize isCut
    refine (whole.isNamed (Grammar.named_reading fun t mem => valid t ?_)).1
    exact (List.takeWhile_sublist _).subset mem

end Reckon
