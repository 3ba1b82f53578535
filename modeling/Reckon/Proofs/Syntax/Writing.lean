import Mathlib.Data.List.Forall2
import Reckon.Proofs.Syntax.Acceptance
import Reckon.Proofs.Token.Spelling

/-!
# Writing expressions

How texts are put together so that the grammar reads them: a text stands for a phrase if it is read
as that phrase in front of everything that may follow an operand. Each way of composing texts has
one lemma, and no lemma mentions the parser.
-/

namespace Reckon.Grammar

open Token (Kind Spells Separate isIdentifier)

/-- Whether the first token begins an operand. -/
def opensOperand : List Kind → Bool
  | .number _ :: _ => true
  | .name _ :: _ => true
  | .leftParen :: _ => true
  | .leftBracket :: _ => true
  | _ => false

/-- Text that may follow an operand. -/
structure Tail (cs : List Char) (ks : List Kind) : Prop where
  spells : Spells cs ks
  separate : Separate cs
  ended : opensOperand ks = false

namespace Tail

variable {cs : List Char} {ks : List Kind}

/-- The end of the text may follow an operand. -/
theorem nil : Tail [] [] :=
  ⟨Token.spells_nil, Token.separate_nil, rfl⟩

/-- A closing parenthesis may follow an operand. -/
theorem rightParen (h : Spells cs ks) : Tail (')' :: cs) (.rightParen :: ks) :=
  ⟨h.rightParen, Token.separate_cons cs (by decide) (by decide), rfl⟩

/-- A closing bracket may follow an operand. -/
theorem rightBracket (h : Spells cs ks) : Tail (']' :: cs) (.rightBracket :: ks) :=
  ⟨h.rightBracket, Token.separate_cons cs (by decide) (by decide), rfl⟩

/-- A comma may follow an operand. -/
theorem comma (h : Spells cs ks) : Tail (',' :: ' ' :: cs) (.comma :: ks) :=
  ⟨(h.gap rfl).comma, Token.separate_cons _ (by decide) (by decide), rfl⟩

/-- A caret may follow an operand. -/
theorem caret (h : Spells cs ks) : Tail ('^' :: cs) (.operator .power :: ks) :=
  ⟨h.caret, Token.separate_cons cs (by decide) (by decide), rfl⟩

/-- An operator between spaces may follow an operand. -/
theorem spaced (op : Operator) (h : Spells cs ks) :
    Tail (' ' :: (op.symbol.toList ++ ' ' :: cs)) (.operator op :: ks) :=
  ⟨h.spaced op, Token.separate_cons _ (by decide) (by decide), rfl⟩

/-- No name follows an operand. -/
theorem head?_ne_name (h : Tail cs ks) (name : String) : ks.head? ≠ some (.name name) := by
  have ended := h.ended
  cases ks with
  | nil => exact nofun
  | cons k ks =>
    intro same
    rw [Option.some.inj same] at ended
    cases ended

/-- No opening parenthesis follows an operand. -/
theorem head?_ne_leftParen (h : Tail cs ks) : ks.head? ≠ some .leftParen := by
  have ended := h.ended
  cases ks with
  | nil => exact nofun
  | cons k ks =>
    intro same
    rw [Option.some.inj same] at ended
    cases ended

/-- No opening bracket follows an operand. -/
theorem head?_ne_leftBracket (h : Tail cs ks) : ks.head? ≠ some .leftBracket := by
  have ended := h.ended
  cases ks with
  | nil => exact nofun
  | cons k ks =>
    intro same
    rw [Option.some.inj same] at ended
    cases ended

end Tail

/-- The text is read as a phrase. If it ends with the parenthesis of a call, no equals sign may
follow it: that would make a definition of the call. -/
def Writes (depth level : Nat) (text : String) (e : Expr) (called : Bool) : Prop :=
  ∀ ⦃cs : List Char⦄ ⦃ks : List Kind⦄, Tail cs ks →
    (called = true → ks.head? ≠ some (.operator .assign)) →
      ∃ front, Spells (text.toList ++ cs) front ∧ Phrase depth level front e ks

/-- The text is read as an expression where no operator follows it. -/
def WritesWhole (depth : Nat) (text : String) (e : Expr) : Prop :=
  ∀ ⦃cs : List Char⦄ ⦃ks : List Kind⦄, Tail cs ks → startsWithOperator ks = false →
    ∃ front, Spells (text.toList ++ cs) front ∧ Whole depth front e ks

section Rules

variable {depth level : Nat} {text : String} {e : Expr} {called : Bool}

/-- A phrase that is written at one depth is written at every greater one. -/
theorem Writes.mono {deeper : Nat} (h : Writes depth level text e called) (le : depth ≤ deeper) :
    Writes deeper level text e called := by
  intro cs ks tail fits
  obtain ⟨front, spells, phrase⟩ := h tail fits
  exact ⟨front, spells, phrase.mono le⟩

/-- An expression that is written at one depth is written at every greater one. -/
theorem WritesWhole.mono {deeper : Nat} (h : WritesWhole depth text e) (le : depth ≤ deeper) :
    WritesWhole deeper text e := by
  intro cs ks tail fits
  obtain ⟨front, spells, whole⟩ := h tail fits
  exact ⟨front, spells, whole.mono le⟩

/-- What binds more tightly may stand wherever a looser phrase may. -/
theorem Phrase.loosen {tight loose : Nat} {ks rest : List Kind} (h : Phrase depth tight ks e rest)
    (le : loose ≤ tight) (bound : tight ≤ 5) : Phrase depth loose ks e rest := by
  obtain ⟨steps, rfl⟩ := Nat.exists_eq_add_of_le le
  induction steps with
  | zero => exact h
  | succ steps ih => exact ih (.tighter (by omega) h) (by omega) (by omega)

/-- What is written as a tight phrase is also written as a looser one. -/
theorem Writes.loosen {loose : Nat} (h : Writes depth level text e called) (le : loose ≤ level)
    (bound : level ≤ 5) : Writes depth loose text e called := by
  intro cs ks tail fits
  obtain ⟨front, spells, phrase⟩ := h tail fits
  exact ⟨front, spells, phrase.loosen le bound⟩

/-- The text of a number that is not negative is read as that number. -/
theorem writes_number (depth : Nat) {d : Decimal} (h : d.negative = false) :
    Writes depth 5 d.text (.number d) false := by
  intro cs ks tail _
  exact ⟨_, .number h tail.separate tail.head?_ne_name tail.spells, .number⟩

/-- An identifier is read as the variable of that name. -/
theorem writes_name (depth : Nat) {name : String} (valid : isIdentifier name = true) :
    Writes depth 5 name (.plain name) false := by
  intro cs ks tail _
  exact ⟨_, .name valid tail.separate tail.spells, .name tail.head?_ne_leftParen⟩

/-- A minus sign in front of an operand. -/
theorem Writes.minus (h : Writes depth 5 text e called) :
    Writes (depth + 1) 5 ("-" ++ text) (.signed .negative e) called := by
  intro cs ks tail fits
  obtain ⟨front, spells, phrase⟩ := h tail fits
  rw [String.toList_append, List.append_assoc]
  exact ⟨_, spells.minus, @Phrase.signed depth front ks .negative e phrase⟩

/-- Two operands with an operator between them, however the operator is written. -/
theorem Writes.joined {op : Operator} {left right infix' : String} {l r : Expr}
    {leftCalled : Bool} (precedence : op.precedence = level)
    (between : ∀ {cs ks}, Spells cs ks → Tail (infix'.toList ++ cs) (.operator op :: ks))
    (noCall : op = .assign → leftCalled = false)
    (before : Writes depth level left l leftCalled)
    (after : Writes depth (level + 1) right r called) :
    Writes depth level (left ++ infix' ++ right) (.binary op l r) called := by
  intro cs ks tail fits
  obtain ⟨mid, spells, phrase⟩ := after tail fits
  have noAssign : leftCalled = true →
      (Kind.operator op :: mid).head? ≠ some (.operator .assign) := by
    intro call same
    rw [noCall (Kind.operator.inj (Option.some.inj same))] at call
    cases call
  obtain ⟨front, spells, whole⟩ := before (between spells) noAssign
  rw [String.toList_append, String.toList_append, List.append_assoc, List.append_assoc]
  exact ⟨front, spells, .joined precedence whole phrase⟩

/-- A phrase is an expression where no operator goes on with it. -/
theorem Writes.whole (h : Writes depth level text e called) (loose : 1 ≤ level)
    (bound : level ≤ 5) : WritesWhole (depth + 1) text e := by
  intro cs ks tail ended
  have fits : called = true → ks.head? ≠ some (.operator .assign) := by
    intro _ same
    rw [startsWithOperator_of_head? same] at ended
    cases ended
  obtain ⟨front, spells, phrase⟩ := h tail fits
  exact ⟨front, spells, .intro (phrase.loosen loose bound) ended⟩

/-- An expression in parentheses. -/
theorem WritesWhole.parenthesized (h : WritesWhole depth text e) :
    Writes depth 5 ("(" ++ text ++ ")") e false := by
  intro cs ks tail _
  obtain ⟨front, spells, whole⟩ := h (.rightParen tail.spells) rfl
  rw [String.toList_append, String.toList_append, List.append_assoc, List.append_assoc]
  exact ⟨_, spells.leftParen, .parenthesized whole⟩

/-- No phrase is written with nothing. -/
theorem Writes.isEmpty_eq_false (h : Writes depth level text e called) : text.isEmpty = false := by
  rw [Bool.eq_false_iff]
  intro empty
  obtain ⟨front, spells, phrase⟩ := h .nil fun _ => nofun
  rw [String.isEmpty_iff.1 empty] at spells
  obtain rfl : front = [] := Token.eq_nil_of_spells_nil spells
  have positive := e.height_pos
  have room := phrase.height_add_le
  rw [List.length_nil] at room
  omega

/-! ## Lists -/

/-- Texts with commas between them are put together from the front. -/
theorem commaSeparated_cons_cons (text next : String) (texts : List String) :
    commaSeparated (text :: next :: texts) = text ++ ", " ++ commaSeparated (next :: texts) :=
  String.intercalate_cons_cons

/-- Names separated by commas are read as a list of names. -/
theorem spells_nameList {params : List String} (valid : ∀ name ∈ params, isIdentifier name = true)
    {cs : List Char} {ks : List Kind} (separate : Separate cs) (h : Spells cs ks) :
    Spells ((commaSeparated params).toList ++ cs) (nameList params ++ ks) := by
  induction params with
  | nil => exact h
  | cons name params ih =>
    have first := valid name List.mem_cons_self
    have others := ih fun other mem => valid other (List.mem_cons_of_mem name mem)
    cases params with
    | nil => exact h.name first separate
    | cons next params =>
      have tail := Tail.comma others
      rw [commaSeparated_cons_cons, String.toList_append, String.toList_append, List.append_assoc,
        List.append_assoc]
      exact .name first tail.separate tail.spells

/-- The text and a closing parenthesis are read as arguments. -/
def WritesArguments (depth : Nat) (text : String) (args : List Expr) : Prop :=
  ∀ ⦃cs : List Char⦄ ⦃ks : List Kind⦄, Spells cs ks →
    ∃ front, Spells (text.toList ++ ')' :: cs) front ∧ Arguments depth front args ks

/-- No text is read as no arguments. -/
theorem writesArguments_nil (depth : Nat) : WritesArguments depth "" [] :=
  fun _ _ spells => ⟨_, spells.rightParen, .none⟩

/-- One expression is read as one argument. -/
theorem WritesWhole.argument (h : WritesWhole depth text e) : WritesArguments depth text [e] := by
  intro cs ks spells
  obtain ⟨front, spells, whole⟩ := h (.rightParen spells) rfl
  exact ⟨front, spells, .last whole⟩

/-- An expression, a comma and arguments are read as one argument more. -/
theorem WritesWhole.arguments {texts : String} {next : Expr} {args : List Expr}
    (h : WritesWhole depth text e) (others : WritesArguments depth texts (next :: args)) :
    WritesArguments depth (text ++ ", " ++ texts) (e :: next :: args) := by
  intro cs ks spells
  obtain ⟨mid, spells, more⟩ := others spells
  obtain ⟨front, spells, whole⟩ := h (.comma spells) rfl
  rw [String.toList_append, String.toList_append, List.append_assoc, List.append_assoc]
  exact ⟨front, spells, .more whole more⟩

/-- Texts that are read as expressions are arguments when they have commas between them. -/
theorem writesArguments_of_forall₂ {texts : List String} {args : List Expr}
    (h : List.Forall₂ (fun text e => WritesWhole depth text e) texts args) :
    WritesArguments depth (commaSeparated texts) args := by
  induction h with
  | nil => exact writesArguments_nil depth
  | cons first others ih =>
    cases others with
    | nil => exact first.argument
    | cons next others =>
      rw [commaSeparated_cons_cons]
      exact first.arguments ih

/-- The text and a closing bracket are read as elements. -/
def WritesElements (depth : Nat) (text : String) (items : List Expr) : Prop :=
  ∀ ⦃cs : List Char⦄ ⦃ks : List Kind⦄, Spells cs ks →
    ∃ front, Spells (text.toList ++ ']' :: cs) front ∧ Elements depth front items ks

/-- No text is read as no elements. -/
theorem writesElements_nil (depth : Nat) : WritesElements depth "" [] :=
  fun _ _ spells => ⟨_, spells.rightBracket, .none⟩

/-- One expression is read as one element. -/
theorem WritesWhole.element (h : WritesWhole depth text e) : WritesElements depth text [e] := by
  intro cs ks spells
  obtain ⟨front, spells, whole⟩ := h (.rightBracket spells) rfl
  exact ⟨front, spells, .plain whole .none⟩

/-- An expression, a comma and elements are read as one element more. -/
theorem WritesWhole.elements {texts : String} {items : List Expr} (h : WritesWhole depth text e)
    (others : WritesElements depth texts items) :
    WritesElements depth (text ++ ", " ++ texts) (e :: items) := by
  intro cs ks spells
  obtain ⟨mid, spells, more⟩ := others spells
  obtain ⟨front, spells, whole⟩ := h (.comma spells) rfl
  rw [String.toList_append, String.toList_append, List.append_assoc, List.append_assoc]
  exact ⟨front, spells, .comma whole more⟩

/-- The text is read as vectors that follow one another. -/
def WritesColumns (depth : Nat) (text : String) (columns : List Expr) : Prop :=
  ∀ ⦃cs : List Char⦄ ⦃ks : List Kind⦄, Spells cs ks →
    ∃ front, Spells (text.toList ++ cs) front ∧ Columns depth front columns ks

/-- No text is read as no columns. -/
theorem writesColumns_nil (depth : Nat) : WritesColumns depth "" [] :=
  fun _ ks spells => ⟨ks, spells, .none⟩

/-- Elements in brackets in front of columns are read as one column more. -/
theorem WritesElements.columns {texts : String} {items columns : List Expr}
    (h : WritesElements depth text items) (others : WritesColumns depth texts columns) :
    WritesColumns depth ("[" ++ text ++ "]" ++ texts) (.vector items :: columns) := by
  intro cs ks spells
  obtain ⟨mid, spells, more⟩ := others spells
  obtain ⟨front, spells, list⟩ := h spells
  simp only [String.toList_append, List.append_assoc]
  exact ⟨_, spells.leftBracket, .more list more⟩

/-! ## Operands with names and brackets -/

/-- An identifier with arguments in parentheses is read as a call. -/
theorem WritesArguments.call {name : String} {args : List Expr}
    (valid : isIdentifier name = true) (h : WritesArguments depth text args) :
    Writes depth 5 (name ++ "(" ++ text ++ ")") (.call name args) true := by
  intro cs ks tail fits
  obtain ⟨front, spells, list⟩ := h tail.spells
  have opened : Separate ('(' :: (text.toList ++ ')' :: cs)) :=
    Token.separate_cons _ (by decide) (by decide)
  simp only [String.toList_append, List.append_assoc]
  exact ⟨_, .name valid opened spells.leftParen, .call list (fits rfl)⟩

/-- One column or more is read as a matrix. -/
theorem WritesColumns.matrix {column : Expr} {columns : List Expr}
    (h : WritesColumns depth text (column :: columns)) :
    Writes depth 5 text (.matrix (column :: columns)) false := by
  intro cs ks tail _
  obtain ⟨front, spells, list⟩ := h tail.spells
  exact ⟨front, spells, .matrix list tail.head?_ne_leftBracket⟩

/-- The body of a definition goes on as far as it can, so no operator may follow it. -/
theorem WritesWhole.definition {name : String} {params : List String}
    (valid : isIdentifier name = true) (validParams : ∀ name ∈ params, isIdentifier name = true)
    (h : WritesWhole depth text e) :
    WritesWhole (depth + 1) (name ++ "(" ++ commaSeparated params ++ ") = " ++ text)
      (.definition name params e) := by
  intro cs ks tail ended
  obtain ⟨front, spells, body⟩ := h tail ended
  have equals : Spells (") = ".toList ++ (text.toList ++ cs))
      (.rightParen :: .operator .assign :: front) :=
    (spells.spaced .assign).rightParen
  have closed : Separate (") = ".toList ++ (text.toList ++ cs)) :=
    Token.separate_cons _ (by decide) (by decide)
  have list := spells_nameList validParams closed equals
  have opened : Separate ('(' :: ((commaSeparated params).toList ++
      (") = ".toList ++ (text.toList ++ cs)))) :=
    Token.separate_cons _ (by decide) (by decide)
  have phrase : Phrase depth 1 _ (.definition name params e) ks :=
    (Phrase.definition body).loosen (by omega : 1 ≤ 5) (Nat.le_refl 5)
  simp only [String.toList_append, List.append_assoc]
  exact ⟨_, .name valid opened list.leftParen, .intro phrase ended⟩

end Rules

/-- A text that is read as an expression is parsed as that expression. -/
theorem WritesWhole.parse_eq_ok {depth maxDepth : Nat} {text : String} {e : Expr}
    (h : WritesWhole depth text e) (deep : depth ≤ maxDepth) (low : e.height ≤ maxDepth) :
    Expr.parse maxDepth text = .ok e := by
  obtain ⟨front, spells, whole⟩ := h .nil rfl
  rw [List.append_nil] at spells
  obtain ⟨tokens, last, isCut, rfl, inner, ends⟩ := spells.tokenize
  rw [Expr.parse, isCut]
  refine ofTokens_eq_ok_iff.2 ⟨?_, low⟩
  rw [ahead_append_finish inner ends]
  exact whole.mono deep

/-- A text is read in one way, however deep it may be nested. -/
theorem WritesWhole.eq_of_parse {depth maxDepth : Nat} {text : String} {e tree : Expr}
    (h : WritesWhole depth text e) (parsed : Expr.parse maxDepth text = .ok tree) : tree = e := by
  have low := parse_eq_ok_of_le parsed (Nat.le_max_left maxDepth (max depth e.height))
  rw [h.parse_eq_ok (by omega) (by omega)] at low
  exact (Except.ok.inj low).symm

end Reckon.Grammar

namespace Reckon.Expr

/-- The tree that is read from the text of a number, with all its places. -/
def ofDecimal (d : Decimal) : Expr :=
  if d.negative then .signed .negative (.number d.neg) else .number d

/-- The tree that is read from a number. -/
def signedNumber (d : Decimal) : Expr :=
  if d.normalize.negative then .signed .negative (.number d.normalize.neg) else .number d.normalize

/-- The tree of a printed number is at most a sign above a number. -/
theorem height_signedNumber_le (d : Decimal) : (signedNumber d).height ≤ 2 := by
  rw [signedNumber]
  split
  · exact Nat.le_refl 2
  · exact Nat.le_succ 1

/-- The text of a number with all its places is read as its tree. -/
theorem writes_ofDecimal (d : Decimal) : Grammar.Writes 1 5 d.text (ofDecimal d) false := by
  rw [ofDecimal]
  cases sign : d.negative with
  | false =>
    rw [if_neg Bool.false_ne_true]
    exact Grammar.writes_number 1 sign
  | true =>
    have positive : d.neg.negative = false := by rw [Decimal.neg, sign]; rfl
    rw [if_pos rfl, Decimal.text_of_negative sign]
    exact (Grammar.writes_number 0 positive).minus

/-- The printed text of a number is read as its tree. -/
theorem writes_signedNumber (d : Decimal) : Grammar.Writes 1 5 d.render (signedNumber d) false :=
  writes_ofDecimal d.normalize

end Reckon.Expr
