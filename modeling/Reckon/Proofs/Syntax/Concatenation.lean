import Reckon.Proofs.Syntax.Writing
import Reckon.Proofs.Token.Concatenation

/-!
# Expressions one after the other

What more tokens behind an expression do to it. An expression that has been read up to some token is
read up to there whatever follows; one that has been read to the end keeps its tree if nothing that
follows can go on with its last operand. An operator may stand between any two expressions: what it
takes is decided by precedence, and a definition takes it into its body.
-/

namespace Reckon

/-- Whether the last operand of a tree is a definition. -/
def Expr.endsInDefinition : Expr → Bool
  | .signed _ operand => operand.endsInDefinition
  | .binary _ _ right => right.endsInDefinition
  | .definition _ _ _ => true
  | _ => false

namespace Grammar

open Token (Kind Spells)

/-- No token that goes on with an operand comes first: an opening parenthesis or bracket, or a
single equals sign, which makes a definition of a call. -/
structure EndsOperand (ks : List Kind) : Prop where
  noParen : ks.head? ≠ some .leftParen
  noBracket : ks.head? ≠ some .leftBracket
  noEquals : ks.head? ≠ some (.operator .assign)

/-- An operator other than a single equals sign ends an operand. -/
theorem endsOperand_operator {op : Operator} (noAssign : op ≠ .assign) (ks : List Kind) :
    EndsOperand (.operator op :: ks) :=
  ⟨nofun, nofun, fun same => noAssign (Kind.operator.inj (Option.some.inj same))⟩

/-- A closing parenthesis ends an operand. -/
theorem endsOperand_rightParen (ks : List Kind) : EndsOperand (.rightParen :: ks) :=
  ⟨nofun, nofun, nofun⟩

/-- The first token stays what it is, or it was not there and is the first of what follows. -/
theorem head?_append_ne {rest more : List Kind} {k : Kind} (before : rest.head? ≠ some k)
    (behind : rest = [] → more.head? ≠ some k) : (rest ++ more).head? ≠ some k := by
  cases rest with
  | nil => exact behind rfl
  | cons _ _ => exact before

/-- A rest starts with no operator if more tokens behind it do not bring one to its front. -/
theorem startsWithOperator_append {rest more : List Kind}
    (before : startsWithOperator rest = false)
    (behind : rest = [] → startsWithOperator more = false) :
    startsWithOperator (rest ++ more) = false := by
  cases rest with
  | nil => exact behind rfl
  | cons k ks =>
    cases k with
    | operator op => cases before
    | _ => rfl

/-- Elements have their closing bracket. -/
theorem Elements.ne_nil {depth : Nat} {ks rest : List Kind} {items : List Expr}
    (h : Elements depth ks items rest) : ks ≠ [] := by
  rintro rfl
  exact absurd h.height_add_lt (Nat.not_lt_zero _)

mutual

/-- More tokens at the end leave a phrase as it is, if they do not go on with it. -/
theorem Phrase.append : ∀ {depth level : Nat} {ks rest : List Kind} {e : Expr},
    Phrase depth level ks e rest → ∀ {more}, (rest = [] →
      EndsOperand more ∧ (e.endsInDefinition = true → startsWithOperator more = false)) →
        Phrase depth level (ks ++ more) e (rest ++ more)
  | _, _, _, _, _, .tighter low phrase, _, ends => .tighter low (phrase.append ends)
  | _, _, _, _, _, .joined same left right, _, ends =>
    .joined same (left.append nofun) (right.append ends)
  | _, _, _, _, _, .signed phrase, _, ends => .signed (phrase.append ends)
  | _, _, _, _, _, .number, _, _ => .number
  | _, _, _, _, _, .name noParen, _, ends =>
    .name (head?_append_ne noParen fun none => (ends none).1.noParen)
  | _, _, _, _, _, .parenthesized whole, _, _ => .parenthesized (whole.append nofun)
  | _, _, _, _, _, .definition body, _, ends => by
    rw [List.cons_append, List.cons_append, List.append_assoc, List.cons_append, List.cons_append]
    exact .definition (body.append fun none => ⟨(ends none).1, (ends none).2 rfl⟩)
  | _, _, _, _, _, .call args noEquals, more, ends =>
    .call (args.append more) (head?_append_ne noEquals fun none => (ends none).1.noEquals)
  | _, _, _, _, _, .matrix columns noBracket, more, ends =>
    .matrix (columns.append more) (head?_append_ne noBracket fun none => (ends none).1.noBracket)

/-- An expression that was read to the end is one in front of tokens that do not go on with it. -/
theorem Whole.append : ∀ {depth : Nat} {ks rest : List Kind} {e : Expr},
    Whole depth ks e rest → ∀ {more},
      (rest = [] → EndsOperand more ∧ startsWithOperator more = false) →
        Whole depth (ks ++ more) e (rest ++ more)
  | _, _, _, _, .intro phrase ended, _, ends =>
    .intro (phrase.append fun none => ⟨(ends none).1, fun _ => (ends none).2⟩)
      (startsWithOperator_append ended fun none => (ends none).2)

/-- Arguments that were read are read with more tokens behind them. -/
theorem Arguments.append : ∀ {depth : Nat} {ks rest : List Kind} {args : List Expr},
    Arguments depth ks args rest → ∀ more, Arguments depth (ks ++ more) args (rest ++ more)
  | _, _, _, _, .none, _ => .none
  | _, _, _, _, .last whole, _ => .last (whole.append nofun)
  | _, _, _, _, .more whole args, more => .more (whole.append nofun) (args.append more)

/-- Elements that were read are read with more tokens behind them. -/
theorem Elements.append : ∀ {depth : Nat} {ks rest : List Kind} {items : List Expr},
    Elements depth ks items rest → ∀ more, Elements depth (ks ++ more) items (rest ++ more)
  | _, _, _, _, .none, _ => .none
  | _, _, _, _, .plain whole items, more =>
    .plain (whole.append fun none => absurd none items.ne_nil) (items.append more)
  | _, _, _, _, .comma whole items, more => .comma (whole.append nofun) (items.append more)

/-- Columns that were read are read with more tokens behind them. -/
theorem Columns.append : ∀ {depth : Nat} {ks rest : List Kind} {columns : List Expr},
    Columns depth ks columns rest → ∀ more, Columns depth (ks ++ more) columns (rest ++ more)
  | _, _, _, _, .none, _ => .none
  | _, _, _, _, .more items columns, more => .more (items.append more) (columns.append more)

end

/-- What is no operation is an operand. -/
theorem Phrase.operand : ∀ {depth level : Nat} {ks rest : List Kind} {e : Expr},
    Phrase depth level ks e rest → (∀ op left right, e ≠ .binary op left right) →
      Phrase depth 5 ks e rest
  | _, _, _, _, _, .tighter _ phrase, noOperation => phrase.operand noOperation
  | _, _, _, _, _, .joined _ _ _, noOperation => absurd rfl (noOperation _ _ _)
  | _, _, _, _, _, .signed phrase, _ => .signed phrase
  | _, _, _, _, _, .number, _ => .number
  | _, _, _, _, _, .name noParen, _ => .name noParen
  | _, _, _, _, _, .parenthesized whole, _ => .parenthesized whole
  | _, _, _, _, _, .definition body, _ => .definition body
  | _, _, _, _, _, .call args noEquals, _ => .call args noEquals
  | _, _, _, _, _, .matrix columns noBracket, _ => .matrix columns noBracket

/-! ## Two expressions with an operator between them -/

/-- An operator behind a phrase is taken on its own level, with the operand behind it. -/
theorem Phrase.exists_operand {depth : Nat} {mid rest : List Kind} {op : Operator} {operand : Expr}
    (after : Phrase depth 5 mid operand rest) {level : Nat} {ks : List Kind} {e : Expr}
    (low : level ≤ op.precedence) (phrase : Phrase depth level ks e (.operator op :: mid)) :
    ∃ e', Phrase depth level ks e' rest := by
  have bounds := op.precedence_bounds
  -- By induction on how much more tightly the operator binds than the phrase: if it does, the right
  -- side of the phrase takes it.
  by_cases same : op.precedence = level
  · exact ⟨_, .joined same phrase (after.loosen (by omega) (Nat.le_refl 5))⟩
  cases phrase with
  | tighter small tight =>
    obtain ⟨e', taken⟩ := after.exists_operand (by omega) tight
    exact ⟨e', .tighter small taken⟩
  | joined own left right =>
    obtain ⟨right', taken⟩ := after.exists_operand (by omega) right
    exact ⟨_, .joined own left taken⟩
  | _ => omega
termination_by 5 - level

/-- Behind an expression and an operator, all operands of a phrase are taken one by one. -/
theorem Phrase.exists_followed {depth : Nat} : ∀ {level : Nat} {mid rest : List Kind} {next : Expr},
    Phrase depth level mid next rest → ∀ {op : Operator} {ks : List Kind} {e : Expr},
      Phrase depth 1 ks e (.operator op :: mid) → ∃ e', Phrase depth 1 ks e' rest
  | _, _, _, _, .tighter _ phrase, _, _, _, before => phrase.exists_followed before
  | _, _, _, _, .joined _ left right, _, _, _, before => by
    obtain ⟨e', first⟩ := left.exists_followed before
    exact right.exists_followed first
  | _, _, _, _, .signed phrase, op, _, _, before =>
    (Phrase.signed phrase).exists_operand op.precedence_bounds.1 before
  | _, _, _, _, .number, op, _, _, before =>
    Phrase.number.exists_operand op.precedence_bounds.1 before
  | _, _, _, _, .name noParen, op, _, _, before =>
    (Phrase.name noParen).exists_operand op.precedence_bounds.1 before
  | _, _, _, _, .parenthesized whole, op, _, _, before =>
    (Phrase.parenthesized whole).exists_operand op.precedence_bounds.1 before
  | _, _, _, _, .definition body, op, _, _, before =>
    (Phrase.definition body).exists_operand op.precedence_bounds.1 before
  | _, _, _, _, .call args noEquals, op, _, _, before =>
    (Phrase.call args noEquals).exists_operand op.precedence_bounds.1 before
  | _, _, _, _, .matrix columns noBracket, op, _, _, before =>
    (Phrase.matrix columns noBracket).exists_operand op.precedence_bounds.1 before

/-- Tokens that do not go on with an operand leave the phrase as it is. -/
def Keeps (depth level : Nat) (ks : List Kind) (e : Expr) : Prop :=
  ∀ more, EndsOperand more → Phrase depth level (ks ++ more) e more

/-- More tokens are taken by what ends the phrase, up to the rest. -/
def Absorbs (level : Nat) (ks more rest : List Kind) : Prop :=
  ∃ depth e, Phrase depth level (ks ++ more) e rest

section

variable {deeper : Nat} {op : Operator} {mid behind : List Kind} {next : Expr}

mutual

/-- An operator and an expression may stand behind a phrase, or a definition at its end takes them
into its body. -/
theorem Phrase.keeps_or_absorbs : ∀ {depth level : Nat} {ks rest : List Kind} {e : Expr},
    Phrase depth level ks e rest → rest = [] → op ≠ .assign → Whole deeper mid next behind →
      Keeps depth level ks e ∨ Absorbs level ks (.operator op :: mid) behind
  | _, _, _, _, _, .tighter low phrase, empty, noAssign, after => by
    rcases phrase.keeps_or_absorbs empty noAssign after with keeps | ⟨depth', e', absorbed⟩
    · exact .inl fun more ends => .tighter low (keeps more ends)
    · exact .inr ⟨depth', e', .tighter low absorbed⟩
  | depth, _, _, _, _, .joined same left right, empty, noAssign, after => by
    rcases right.keeps_or_absorbs empty noAssign after with keeps | ⟨depth', e', absorbed⟩
    · exact .inl fun more ends => .joined same (left.append nofun) (keeps more ends)
    · exact .inr ⟨max depth depth', _, .joined same
        ((left.append nofun).mono (Nat.le_max_left _ _)) (absorbed.mono (Nat.le_max_right _ _))⟩
  | _, _, _, _, _, .signed phrase, empty, noAssign, after => by
    rcases phrase.keeps_or_absorbs empty noAssign after with keeps | ⟨depth', e', absorbed⟩
    · exact .inl fun more ends => .signed (keeps more ends)
    · exact .inr ⟨depth' + 1, _, .signed absorbed⟩
  | _, _, _, _, _, .number, empty, _, _ => by
    subst empty
    exact .inl fun more _ => .number
  | _, _, _, _, _, .name _, empty, _, _ => by
    subst empty
    exact .inl fun more ends => .name ends.noParen
  | _, _, _, _, _, .parenthesized whole, empty, _, _ => by
    subst empty
    exact .inl fun more _ => .parenthesized (whole.append nofun)
  | _, _, _, _, .definition name params _, .definition body, empty, noAssign, after => by
    obtain ⟨depth', body', absorbed⟩ := body.exists_joined empty noAssign after
    refine .inr ⟨depth', .definition name params body', ?_⟩
    rw [List.cons_append, List.cons_append, List.append_assoc, List.cons_append, List.cons_append]
    exact .definition absorbed
  | _, _, _, _, _, .call args _, empty, _, _ => by
    subst empty
    exact .inl fun more ends => .call (args.append more) ends.noEquals
  | _, _, _, _, _, .matrix columns _, empty, _, _ => by
    subst empty
    exact .inl fun more ends => .matrix (columns.append more) ends.noBracket

/-- Between two expressions an operator may stand, whatever it takes of them. -/
theorem Whole.exists_joined : ∀ {depth : Nat} {ks rest : List Kind} {e : Expr},
    Whole depth ks e rest → rest = [] → op ≠ .assign → Whole deeper mid next behind →
      ∃ depth' e', Whole depth' (ks ++ .operator op :: mid) e' behind
  | _, _, _, _, .intro phrase _, empty, noAssign, after => by
    -- Behind a phrase that keeps its tree, precedence decides what the operator takes of it.
    have taken := phrase.keeps_or_absorbs empty noAssign after
    obtain ⟨after, ended⟩ := after
    rcases taken with keeps | ⟨depth', e', absorbed⟩
    · have before := keeps (.operator op :: mid) (endsOperand_operator noAssign mid)
      obtain ⟨e', joined⟩ := (after.mono (Nat.le_max_right _ _)).exists_followed
        (before.mono (Nat.le_max_left _ _))
      exact ⟨_, e', .intro joined ended⟩
    · exact ⟨_, e', .intro absorbed ended⟩

end

end

/-- The kinds of two texts with an operator between them, all in parentheses. -/
def composed (op : Operator) (left right : List Kind) : List Kind :=
  .leftParen :: (left ++ .operator op :: (right ++ [.rightParen]))

section

variable {op : Operator} {depth depth' : Nat} {left right : List Kind} {l r : Expr}

/-- In parentheses, two expressions with an operator between them are an expression. -/
theorem exists_phrase_composed (noAssign : op ≠ .assign) (before : Whole depth left l [])
    (after : Whole depth' right r []) :
    ∃ deeper tree, Phrase deeper 5 (composed op left right) tree [] := by
  have closed : Whole depth' (right ++ [.rightParen]) r [.rightParen] :=
    after.append fun _ => ⟨endsOperand_rightParen [], rfl⟩
  obtain ⟨deeper, tree, joined⟩ := before.exists_joined rfl noAssign closed
  exact ⟨deeper, tree, .parenthesized joined⟩

/-- The operator takes the whole of both expressions if the first one is a phrase of its own level
and the second one a tighter one. -/
theorem phrase_composed (noAssign : op ≠ .assign) (before : Phrase depth op.precedence left l [])
    (free : l.endsInDefinition = false) (after : Phrase depth' (op.precedence + 1) right r []) :
    Phrase (max depth depth' + 1) 5 (composed op left right) (.binary op l r) [] := by
  have closed : Phrase depth' (op.precedence + 1) (right ++ [.rightParen]) r [.rightParen] :=
    after.append fun _ => ⟨endsOperand_rightParen [], fun _ => rfl⟩
  have opened : Phrase depth op.precedence (left ++ .operator op :: (right ++ [.rightParen])) l
      (.operator op :: (right ++ [.rightParen])) :=
    before.append fun _ => ⟨endsOperand_operator noAssign _, fun ends => by
      rw [free] at ends
      cases ends⟩
  have joined := Phrase.joined rfl (opened.mono (Nat.le_max_left depth depth'))
    (closed.mono (Nat.le_max_right depth depth'))
  have bounds := op.precedence_bounds
  exact .parenthesized (.intro (joined.loosen bounds.1 (by omega)) rfl)

end

/-! ## Texts -/

/-- The text is a phrase of the level, from its beginning to its end. -/
def IsPhrase (level : Nat) (text : String) (e : Expr) : Prop :=
  ∃ depth ks, Spells text.toList ks ∧ Phrase depth level ks e []

/-- Two texts with an operator between them, all in parentheses. -/
def composedText (op : Operator) (left right : String) : String :=
  "(" ++ left ++ " " ++ op.symbol ++ " " ++ right ++ ")"

/-- The composed text is read as the composed kinds. -/
theorem spells_composedText (op : Operator) {left right : String} {ks ks' : List Kind}
    (before : Spells left.toList ks) (after : Spells right.toList ks') :
    Spells (composedText op left right).toList (composed op ks ks') := by
  have close : Spells [')'] [.rightParen] := Token.spells_nil.rightParen
  have closed := after.append close
    (Token.endsWord_gap [] (by decide) (by decide) (by decide)) fun _ => nofun
  have opened := before.append (closed.spaced op)
    (Token.endsWord_gap _ (by decide) (by decide) (by decide)) fun _ => nofun
  have all := opened.leftParen
  rw [composedText]
  simp only [String.toList_append, List.append_assoc]
  exact all

section

variable {level : Nat} {text : String} {e : Expr}

/-- Under a limit a text is parsed as the trees of that many levels that are derived from what it
spells with that much nesting. -/
theorem parse_eq_ok_iff {limit : Nat} :
    Expr.parse limit text = .ok e ↔
      ∃ ks, Spells text.toList ks ∧ Whole limit ks e [] ∧ e.height ≤ limit := by
  constructor
  · intro h
    unfold Expr.parse at h
    split at h
    · cases h
    · next tokens isCut => exact ⟨_, Token.spells_of_tokenize isCut, ofTokens_eq_ok_iff.1 h⟩
  · rintro ⟨ks, spells, derived⟩
    obtain ⟨tokens, last, isCut, rfl, inner, ends⟩ := spells.tokenize
    rw [Expr.parse, isCut]
    refine ofTokens_eq_ok_iff.2 ?_
    rwa [ahead_append_finish inner ends]

/-- A text that is parsed is a phrase of any operators. -/
theorem isPhrase_of_parse {limit : Nat} (h : Expr.parse limit text = .ok e) :
    IsPhrase 1 text e := by
  obtain ⟨ks, spells, ⟨phrase, -⟩, -⟩ := parse_eq_ok_iff.1 h
  exact ⟨_, ks, spells, phrase⟩

/-- A text that is written as a phrase is one by itself. -/
theorem Writes.isPhrase {depth : Nat} {called : Bool} (h : Writes depth level text e called) :
    IsPhrase level text e := by
  obtain ⟨front, spells, phrase⟩ := h .nil fun _ => nofun
  rw [List.append_nil] at spells
  exact ⟨depth, front, spells, phrase⟩

/-- A tight phrase is also a looser one. -/
theorem IsPhrase.loosen {loose : Nat} (h : IsPhrase level text e) (le : loose ≤ level)
    (bound : level ≤ 5) : IsPhrase loose text e := by
  obtain ⟨depth, ks, spells, phrase⟩ := h
  exact ⟨depth, ks, spells, phrase.loosen le bound⟩

/-- A phrase is accepted under every limit that is large enough. -/
theorem IsPhrase.exists_parse (h : IsPhrase level text e) (positive : 1 ≤ level)
    (bound : level ≤ 5) :
    ∃ enough, ∀ limit, enough ≤ limit → Expr.parse limit text = .ok e := by
  obtain ⟨depth, ks, spells, phrase⟩ := h.loosen positive bound
  refine ⟨max (depth + 1) e.height, fun limit le => parse_eq_ok_iff.2 ⟨ks, spells, ?_, by omega⟩⟩
  exact (Whole.intro phrase rfl).mono (by omega)

/-- A text is read in one way. -/
theorem IsPhrase.eq_of_parse (h : IsPhrase level text e) (positive : 1 ≤ level) (bound : level ≤ 5)
    {limit : Nat} {tree : Expr} (parsed : Expr.parse limit text = .ok tree) : tree = e := by
  obtain ⟨enough, accepted⟩ := h.exists_parse positive bound
  have again := parse_eq_ok_of_le parsed (Nat.le_max_left limit enough)
  rw [accepted _ (Nat.le_max_right limit enough)] at again
  exact (Except.ok.inj again).symm

end

section

variable {op : Operator} {left right : String} {l r : Expr}

/-- With an operator between them and in parentheses, two phrases are an operand, whatever the
operator takes of them. -/
theorem exists_isPhrase_composedText (noAssign : op ≠ .assign) (before : IsPhrase 1 left l)
    (after : IsPhrase 1 right r) : ∃ tree, IsPhrase 5 (composedText op left right) tree := by
  obtain ⟨depth, ks, spells, phrase⟩ := before
  obtain ⟨depth', ks', spells', phrase'⟩ := after
  obtain ⟨deeper, tree, operand⟩ :=
    exists_phrase_composed noAssign (.intro phrase rfl) (.intro phrase' rfl)
  exact ⟨tree, deeper, _, spells_composedText op spells spells', operand⟩

/-- The operator takes the whole of both texts if they bind tightly enough. -/
theorem isPhrase_composedText (noAssign : op ≠ .assign) (before : IsPhrase op.precedence left l)
    (free : l.endsInDefinition = false) (after : IsPhrase (op.precedence + 1) right r) :
    IsPhrase 5 (composedText op left right) (.binary op l r) := by
  obtain ⟨depth, ks, spells, phrase⟩ := before
  obtain ⟨depth', ks', spells', phrase'⟩ := after
  exact ⟨_, _, spells_composedText op spells spells', phrase_composed noAssign phrase free phrase'⟩

end

/-! ## A number beside an expression in parentheses -/

section

variable {limit : Nat} {text literal : String} {e : Expr} {d : Decimal}

/-- A text in parentheses, with an operator and a number behind it, takes one level more. -/
theorem parse_parenthesized_number (op : Operator) (accepted : Expr.parse limit text = .ok e)
    (number : Expr.parse limit literal = .ok (.number d)) :
    Expr.parse (limit + 1) ("(" ++ text ++ ") " ++ op.symbol ++ " " ++ literal) =
      .ok (.binary op e (.number d)) := by
  obtain ⟨ks, spells, whole, low⟩ := parse_eq_ok_iff.1 accepted
  obtain ⟨ks', spells', ⟨@⟨depth, _, _, _, phrase', -⟩, positive⟩⟩ := parse_eq_ok_iff.1 number
  have bounds := op.precedence_bounds
  have behind := (spells'.spaced op).rightParen
  have opened : Phrase (depth + 1) 5 (.leftParen :: (ks ++ .rightParen :: .operator op :: ks')) e
      (.operator op :: ks') :=
    .parenthesized (whole.append fun _ => ⟨endsOperand_rightParen _, rfl⟩)
  have closed := ((phrase'.operand nofun).mono (Nat.le_succ depth)).loosen
    (by omega : op.precedence + 1 ≤ 5) (Nat.le_refl 5)
  have joined := Phrase.joined rfl (opened.loosen (by omega : op.precedence ≤ 5) (Nat.le_refl 5))
    closed
  have all := (spells.append behind (Token.endsWord_gap _ (by decide) (by decide) (by decide))
    fun _ => nofun).leftParen
  have height : (Expr.binary op e (.number d)).height ≤ depth + 1 + 1 := by
    rw [Expr.height, Expr.height]
    omega
  refine parse_eq_ok_iff.2 ⟨_, ?_, .intro (joined.loosen bounds.1 (by omega)) rfl, height⟩
  simp only [String.toList_append, List.append_assoc] at all ⊢
  exact all

/-- So does a number with an operator and a text in parentheses behind it. -/
theorem parse_number_parenthesized {op : Operator} (noAssign : op ≠ .assign)
    (accepted : Expr.parse limit text = .ok e)
    (number : Expr.parse limit literal = .ok (.number d)) :
    Expr.parse (limit + 1) (literal ++ " " ++ op.symbol ++ " (" ++ text ++ ")") =
      .ok (.binary op (.number d) e) := by
  obtain ⟨ks, spells, whole, low⟩ := parse_eq_ok_iff.1 accepted
  obtain ⟨ks', spells', ⟨@⟨depth, _, _, _, phrase', -⟩, positive⟩⟩ := parse_eq_ok_iff.1 number
  have bounds := op.precedence_bounds
  have closing : Spells [')'] [.rightParen] := Token.spells_nil.rightParen
  have group := (spells.append closing (Token.endsWord_gap _ (by decide) (by decide) (by decide))
    fun _ => nofun).leftParen
  have all := spells'.append (group.spaced op)
    (Token.endsWord_gap _ (by decide) (by decide) (by decide)) fun _ => nofun
  have closed : Phrase (depth + 1) 5 (.leftParen :: (ks ++ [.rightParen])) e [] :=
    .parenthesized (whole.append fun _ => ⟨endsOperand_rightParen _, rfl⟩)
  have opened : Phrase (depth + 1) op.precedence
      (ks' ++ .operator op :: .leftParen :: (ks ++ [.rightParen])) (.number d)
      (.operator op :: .leftParen :: (ks ++ [.rightParen])) :=
    (((phrase'.operand nofun).mono (Nat.le_succ depth)).loosen (by omega) (Nat.le_refl 5)).append
      fun _ => ⟨endsOperand_operator noAssign _, nofun⟩
  have joined := Phrase.joined rfl opened
    (closed.loosen (by omega : op.precedence + 1 ≤ 5) (Nat.le_refl 5))
  have height : (Expr.binary op (.number d) e).height ≤ depth + 1 + 1 := by
    rw [Expr.height, Expr.height]
    omega
  refine parse_eq_ok_iff.2 ⟨_, ?_, .intro (joined.loosen bounds.1 (by omega)) rfl, height⟩
  simp only [String.toList_append, List.append_assoc] at all ⊢
  exact all

end

end Grammar

end Reckon
