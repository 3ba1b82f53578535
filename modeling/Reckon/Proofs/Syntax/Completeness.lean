import Reckon.Proofs.Syntax.Lookahead
import Reckon.Proofs.Syntax.Procedures

/-!
# What the grammar derives, the parser reads

A derivation within the levels of nesting that are allowed, of a tree that is not too high, is
followed by the parser step by step. The grammar recurses on the left of an operator and the parser
goes on to the right, so the statement about phrases says where the parser's chain stands after the
phrase, and not what the chain yields in the end.
-/

namespace Reckon.Grammar

open Token
open Reckon.Expr (Parser Bounds Step operandWith operand expression levels chain binaryLevel
  arguments elements columnRun parameters parameterList operatorAhead)

/-! ## Deeper nesting -/

mutual

/-- A derivation stays one when deeper nesting is allowed. -/
theorem Phrase.deeper : ∀ {depth level : Nat} {ks rest : List Kind} {e : Expr},
    Phrase depth level ks e rest → ∀ more, Phrase (depth + more) level ks e rest
  | _, _, _, _, _, .tighter small phrase, more => .tighter small (phrase.deeper more)
  | _, _, _, _, _, .joined same left right, more =>
    .joined same (left.deeper more) (right.deeper more)
  | depth + 1, _, _, _, _, .signed phrase, more =>
    Nat.add_right_comm depth 1 more ▸ .signed (phrase.deeper more)
  | _, _, _, _, _, .number, _ => .number
  | _, _, _, _, _, .name ended, _ => .name ended
  | _, _, _, _, _, .parenthesized whole, more => .parenthesized (whole.deeper more)
  | _, _, _, _, _, .definition whole, more => .definition (whole.deeper more)
  | _, _, _, _, _, .call args ended, more => .call (args.deeper more) ended
  | _, _, _, _, _, .matrix columns ended, more => .matrix (columns.deeper more) ended

/-- An expression stays one when deeper nesting is allowed. -/
theorem Whole.deeper : ∀ {depth : Nat} {ks rest : List Kind} {e : Expr},
    Whole depth ks e rest → ∀ more, Whole (depth + more) ks e rest
  | depth + 1, _, _, _, .intro phrase ended, more =>
    Nat.add_right_comm depth 1 more ▸ .intro (phrase.deeper more) ended

/-- Arguments stay arguments when deeper nesting is allowed. -/
theorem Arguments.deeper : ∀ {depth : Nat} {ks rest : List Kind} {args : List Expr},
    Arguments depth ks args rest → ∀ more, Arguments (depth + more) ks args rest
  | _, _, _, _, .none, _ => .none
  | _, _, _, _, .last whole, more => .last (whole.deeper more)
  | _, _, _, _, .more whole args, more => .more (whole.deeper more) (args.deeper more)

/-- Elements stay elements when deeper nesting is allowed. -/
theorem Elements.deeper : ∀ {depth : Nat} {ks rest : List Kind} {items : List Expr},
    Elements depth ks items rest → ∀ more, Elements (depth + more) ks items rest
  | _, _, _, _, .none, _ => .none
  | _, _, _, _, .plain whole items, more => .plain (whole.deeper more) (items.deeper more)
  | _, _, _, _, .comma whole items, more => .comma (whole.deeper more) (items.deeper more)

/-- Columns stay columns when deeper nesting is allowed. -/
theorem Columns.deeper : ∀ {depth : Nat} {ks rest : List Kind} {columns : List Expr},
    Columns depth ks columns rest → ∀ more, Columns (depth + more) ks columns rest
  | _, _, _, _, .none, _ => .none
  | _, _, _, _, .more items columns, more => .more (items.deeper more) (columns.deeper more)

end

/-- A phrase is also one at every greater depth. -/
theorem Phrase.mono {depth depth' level : Nat} {ks rest : List Kind} {e : Expr}
    (h : Phrase depth level ks e rest) (le : depth ≤ depth') : Phrase depth' level ks e rest := by
  obtain ⟨more, rfl⟩ := Nat.exists_eq_add_of_le le
  exact h.deeper more

/-- An expression is also one at every greater depth. -/
theorem Whole.mono {depth depth' : Nat} {ks rest : List Kind} {e : Expr}
    (h : Whole depth ks e rest) (le : depth ≤ depth') : Whole depth' ks e rest := by
  obtain ⟨more, rfl⟩ := Nat.exists_eq_add_of_le le
  exact h.deeper more

/-- Arguments are also arguments at every greater depth. -/
theorem Arguments.mono {depth depth' : Nat} {ks rest : List Kind} {args : List Expr}
    (h : Arguments depth ks args rest) (le : depth ≤ depth') : Arguments depth' ks args rest := by
  obtain ⟨more, rfl⟩ := Nat.exists_eq_add_of_le le
  exact h.deeper more

/-! ## First tokens -/

/-- A phrase begins with none of the tokens that separate or close. -/
theorem Phrase.head?_ne : ∀ {depth level : Nat} {ks rest : List Kind} {e : Expr},
    Phrase depth level ks e rest →
    ks.head? ≠ some .rightParen ∧ ks.head? ≠ some .rightBracket ∧ ks.head? ≠ some .comma
  | _, _, _, _, _, .tighter _ phrase => phrase.head?_ne
  | _, _, _, _, _, .joined _ left _ => left.head?_ne
  | _, _, _, _, _, .signed _ => ⟨nofun, nofun, nofun⟩
  | _, _, _, _, _, .number => ⟨nofun, nofun, nofun⟩
  | _, _, _, _, _, .name _ => ⟨nofun, nofun, nofun⟩
  | _, _, _, _, _, .parenthesized _ => ⟨nofun, nofun, nofun⟩
  | _, _, _, _, _, .definition _ => ⟨nofun, nofun, nofun⟩
  | _, _, _, _, _, .call _ _ => ⟨nofun, nofun, nofun⟩
  | _, _, _, _, _, .matrix (.more _ _) _ => ⟨nofun, nofun, nofun⟩

/-- An expression does not begin with a comma or with what closes a list. -/
theorem Whole.head?_ne {depth : Nat} {ks rest : List Kind} {e : Expr}
    (h : Whole depth ks e rest) :
    ks.head? ≠ some .rightParen ∧ ks.head? ≠ some .rightBracket ∧ ks.head? ≠ some .comma := by
  cases h with
  | intro phrase _ => exact phrase.head?_ne

/-- No list of elements begins with a comma. -/
theorem Elements.head?_ne_comma {depth : Nat} {ks rest : List Kind} {items : List Expr}
    (h : Elements depth ks items rest) : ks.head? ≠ some .comma := by
  cases h with
  | none => exact nofun
  | plain whole _ => exact whole.head?_ne.2.2
  | comma whole _ => exact whole.head?_ne.2.2

/-- Arguments do not begin with a closing parenthesis. -/
theorem Arguments.head?_ne {depth : Nat} {ks rest : List Kind} {arg : Expr} {args : List Expr}
    (h : Arguments depth ks (arg :: args) rest) : ks.head? ≠ some .rightParen := by
  cases h with
  | last whole => exact whole.head?_ne.1
  | more whole _ => exact whole.head?_ne.1

/-! ## Operator levels -/

variable {b : Bounds}

/-- The parser of a level, counted from the operands up: level 5 is 0 levels up, level 1 is 4. -/
def tier (b : Bounds) (room : Nat) : Nat → Parser Expr
  | 0 => operand b room
  | up + 1 => binaryLevel b (tier b room up) (4 - up)

/-- Reading a phrase leaves the parser of its level where the rest of its chain begins; an operand
is read to its end. -/
def Reaches (b : Bounds) (room : Nat) (tokens : List Token) (e : Expr) (behind : List Token) :
    (up : Nat) → Prop
  | 0 => (operand b room tokens).Yields e behind
  | up + 1 => ∃ lighter : weight behind < weight tokens, ∀ result stop,
      (chain b (tier b room up) (4 - up) e behind lighter).Yields result stop →
        (tier b room (up + 1) tokens).Yields result stop

/-- No operator of the level, or a tighter one, is read next. -/
def EndsBefore (level : Nat) (rest : List Kind) : Prop :=
  ∀ op, rest.head? = some (.operator op) → op.precedence < level

/-- What ends a phrase of one level ends those of the tighter levels. -/
theorem EndsBefore.mono {level level' : Nat} {rest : List Kind} (h : EndsBefore level rest)
    (le : level ≤ level') : EndsBefore level' rest :=
  fun op same => Nat.lt_of_lt_of_le (h op same) le

/-- A looser operator ends a phrase. -/
theorem endsBefore_operator {level : Nat} {op : Operator} {ks : List Kind}
    (h : op.precedence < level) : EndsBefore level (.operator op :: ks) := by
  intro op' same
  obtain rfl : op = op' := Token.Kind.operator.inj (Option.some.inj same)
  exact h

/-- Behind what ends a phrase, the parser sees no operator to go on with. -/
theorem operatorAhead_eq_false {level : Nat} {tokens : List Token}
    (h : EndsBefore level (reading tokens)) : operatorAhead level tokens = false := by
  cases tokens with
  | nil => rfl
  | cons t rest =>
    rw [operatorAhead]
    split
    · next op isOp =>
      have bound := h op (by rw [head?_reading, List.head?_cons, Option.map_some, isOp])
      exact beq_eq_false_iff_ne.2 (Nat.ne_of_lt bound)
    · rfl

/-- In front of an operator of its own level at the tightest, a phrase is read to its end. -/
theorem Reaches.yields {room up : Nat} {tokens behind : List Token} {e : Expr}
    (h : Reaches b room tokens e behind up) (ended : EndsBefore (5 - up) (reading behind)) :
    (tier b room up tokens).Yields e behind := by
  cases up with
  | zero => exact h
  | succ up =>
    obtain ⟨_, goesOn⟩ := h
    have stops : operatorAhead (4 - up) behind = false :=
      operatorAhead_eq_false (Nat.succ_sub_succ 4 up ▸ ended)
    exact goesOn e behind ((Expr.yields_chain_end stops).2 ⟨rfl, rfl⟩)

/-- A phrase that binds more tightly begins a chain. -/
theorem reaches_of_yields {room up : Nat} {tokens behind : List Token} {e : Expr}
    (h : (tier b room up tokens).Yields e behind) : Reaches b room tokens e behind (up + 1) := by
  obtain ⟨lighter, _⟩ := id h
  refine ⟨lighter, fun result stop goesOn => ?_⟩
  exact Expr.yields_binaryLevel.2 ⟨e, behind, lighter, h, goesOn⟩

/-- An operator and its right side extend a chain. -/
theorem Reaches.joined {room up : Nat} {tokens rest behind : List Token} {t : Token}
    {op : Operator} {left right : Expr} (h : Reaches b room tokens left (t :: rest) (up + 1))
    (isOp : t.kind = .operator op) (same : op.precedence = 4 - up)
    (read : (tier b room up rest).Yields right behind)
    (low : (Expr.binary op left right).height ≤ b.maxDepth) :
    Reaches b room tokens (.binary op left right) behind (up + 1) := by
  obtain ⟨lighter, goesOn⟩ := h
  have lighterStill : weight behind < weight tokens := by
    have taken := weight_lt_cons t rest
    have := read.choose
    omega
  refine ⟨lighterStill, fun result stop tail => goesOn result stop ?_⟩
  exact (Expr.yields_chain_operator isOp same).2 ⟨right, behind, lighterStill, read, low, tail⟩

/-! ## Operands -/

/-- The parser of parameters reads a list of names up to the closing parenthesis. -/
theorem nameList_accepted (names : List String) (nonempty : names ≠ []) {bound : Nat}
    {tokens : List Token} {ks : List Kind} (h : weight tokens < bound)
    (read : reading tokens = nameList names ++ .rightParen :: ks) :
    ∃ t behind, t.kind = .rightParen ∧ reading behind = ks ∧
      (parameters b tokens h).Yields names (t :: behind) := by
  induction names generalizing tokens with
  | nil => exact absurd rfl nonempty
  | cons name names ih =>
    cases names with
    | nil =>
      obtain ⟨t, rest, rfl, named, read⟩ := exists_of_reading read nofun
      obtain ⟨u, behind, rfl, close, read⟩ := exists_of_reading read nofun
      refine ⟨u, behind, close, read, Expr.yields_parameters.2 ?_⟩
      refine ⟨t, u :: behind, name, rfl, named, .inl ⟨?_, rfl, rfl⟩⟩
      rw [List.head?_cons, Option.map_some, close]
      exact nofun
    | cons next names =>
      obtain ⟨t, rest, rfl, named, read⟩ := exists_of_reading read nofun
      obtain ⟨u, after, rfl, comma, read⟩ := exists_of_reading read nofun
      have lighter : weight after < bound := by
        have takenName := weight_lt_cons t (u :: after)
        have takenComma := weight_lt_cons u after
        omega
      obtain ⟨close, behind, isClose, same, yielded⟩ := ih nofun lighter read
      refine ⟨close, behind, isClose, same, Expr.yields_parameters.2 ?_⟩
      exact ⟨t, u :: after, name, rfl, named, .inr ⟨u, after, next :: names, lighter, rfl, comma,
        rfl, yielded⟩⟩

/-- The parser of a definition's parameters reads its list of names behind the opening parenthesis.
-/
theorem parameterList_accepted {params : List String} {bound : Nat} {tokens : List Token}
    {ks : List Kind} (h : weight tokens < bound)
    (read : reading tokens = nameList params ++ .rightParen :: ks) :
    ∃ behind, reading behind = ks ∧ (parameterList b tokens h).Yields params behind := by
  cases params with
  | nil =>
    obtain ⟨t, behind, rfl, close, read⟩ := exists_of_reading read nofun
    exact ⟨behind, read, Expr.yields_parameterList.2 ⟨t, close, .inl ⟨rfl, rfl⟩⟩⟩
  | cons name names =>
    obtain ⟨t, behind, close, same, yielded⟩ :=
      nameList_accepted (name :: names) (List.cons_ne_nil name names) h read
    refine ⟨behind, same, Expr.yields_parameterList.2 ⟨t, close, .inr ⟨?_, yielded⟩⟩⟩
    rw [← head?_reading, read]
    cases names <;> exact nofun

/-- The lookahead recognises a parameter list with an equals sign behind it. -/
theorem beginsDefinition_of_reading {params : List String} {tokens : List Token} {ks : List Kind}
    (read : reading tokens = nameList params ++ .rightParen :: .operator .assign :: ks) :
    Expr.beginsDefinition tokens = true := by
  have counted := map_reading_behindClosing? 0 tokens
  rw [read, closing_nameList, closing] at counted
  obtain ⟨behind, found, same⟩ := Option.map_eq_some_iff.1 counted
  exact (beginsDefinition_iff found).2 (same ▸ rfl)

/-- Tokens whose first one is an operator start with an operator. -/
theorem startsWithOperator_of_head? {ks : List Kind} {op : Operator}
    (h : ks.head? = some (.operator op)) : startsWithOperator ks = true := by
  cases ks with
  | nil => cases h
  | cons k ks =>
    obtain rfl : k = .operator op := Option.some.inj h
    rfl

/-- Without a comma there is nothing to skip. -/
theorem reading_skipComma_of_ne {tokens : List Token} {ks : List Kind} (h : reading tokens = ks)
    (other : ks.head? ≠ some .comma) : reading (Expr.skipComma tokens) = ks := by
  cases tokens with
  | nil => exact h
  | cons t rest =>
    rw [← h, head?_reading] at other
    rw [Expr.skipComma, if_neg fun comma => other (congrArg some comma)]
    exact h

/-- Skipping a comma leaves what stands behind it. -/
theorem reading_skipComma {tokens : List Token} {ks : List Kind}
    (h : reading tokens = .comma :: ks) : reading (Expr.skipComma tokens) = ks := by
  obtain ⟨t, rest, rfl, comma, same⟩ := exists_of_reading h nofun
  rw [Expr.skipComma, if_pos comma]
  exact same

/-- What an expression is read from begins with a token, and with which kind it does not begin is
known from the reading. -/
theorem first_token {room : Nat} {tokens behind : List Token} {e : Expr} {k : Kind}
    (read : (expression b room tokens).Yields e behind)
    (other : (reading tokens).head? ≠ some k) : ∃ t rest, tokens = t :: rest ∧ t.kind ≠ k := by
  cases tokens with
  | nil => exact absurd read.choose (Nat.not_lt_zero _)
  | cons t rest =>
    rw [head?_reading] at other
    exact ⟨t, rest, rfl, fun same => other (congrArg some same)⟩

/-! ## Rules

What a rule of the grammar derives is read by the parser if its premises are. -/

/-- The parser of a level follows a phrase, behind which no operator goes on with it. -/
def PhraseRead (b : Bounds) (depth level : Nat) (ks : List Kind) (e : Expr) (rest : List Kind) :
    Prop :=
  ∀ ⦃up : Nat⦄ ⦃tokens : List Token⦄, level + up = 5 → reading tokens = ks →
    EndsBefore (level + 1) rest → e.height ≤ b.maxDepth →
      ∃ behind, reading behind = rest ∧ Reaches b depth tokens e behind up

/-- The parser of expressions follows an expression to its end. -/
def WholeRead (b : Bounds) (depth : Nat) (ks : List Kind) (e : Expr) (rest : List Kind) : Prop :=
  ∀ ⦃tokens : List Token⦄, reading tokens = ks → e.height ≤ b.maxDepth →
    ∃ behind, reading behind = rest ∧ (expression b depth tokens).Yields e behind

/-- The parser of arguments follows them to the closing parenthesis. -/
def ArgumentsRead (b : Bounds) (depth : Nat) (ks : List Kind) (args : List Expr)
    (rest : List Kind) : Prop :=
  ∀ ⦃name : String⦄ ⦃tokens : List Token⦄ ⦃bound : Nat⦄ (h : weight tokens < bound), args ≠ [] →
    reading tokens = ks → Expr.heightAll args ≤ b.maxDepth →
      ∃ behind, reading behind = rest ∧
        (arguments b (expression b depth) name tokens h).Yields args behind

/-- The parser of elements follows them to the closing bracket. -/
def ElementsRead (b : Bounds) (depth : Nat) (ks : List Kind) (items : List Expr)
    (rest : List Kind) : Prop :=
  ∀ ⦃tokens : List Token⦄ ⦃bound : Nat⦄ (h : weight tokens < bound), reading tokens = ks →
    Expr.heightAll items ≤ b.maxDepth →
      ∃ behind, reading behind = rest ∧
        (elements b (expression b depth) tokens h).Yields items behind

/-- The parser of columns follows them up to something else. -/
def ColumnsRead (b : Bounds) (depth : Nat) (ks : List Kind) (columns : List Expr)
    (rest : List Kind) : Prop :=
  ∀ ⦃tokens : List Token⦄ ⦃bound : Nat⦄ (h : weight tokens < bound), reading tokens = ks →
    Expr.heightAll columns ≤ b.maxDepth → rest.head? ≠ some .leftBracket →
      ∃ behind, reading behind = rest ∧
        (columnRun b (expression b depth) tokens h).Yields columns behind

section Rules

variable {depth level : Nat} {ks mid rest : List Kind} {e : Expr}

/-- A phrase of a tighter level is followed at the looser level, where nothing goes on with it. -/
theorem PhraseRead.tighter (small : level < 5) (h : PhraseRead b depth (level + 1) ks e rest) :
    PhraseRead b depth level ks e rest := by
  intro up tokens sum read ended low
  obtain ⟨up, rfl⟩ : ∃ lower, up = lower + 1 := ⟨4 - level, by omega⟩
  have sum : level + 1 + up = 5 := by omega
  have above : 5 - up = level + 1 := by omega
  obtain ⟨behind, same, reached⟩ := h sum read (ended.mono (Nat.le_succ _)) low
  refine ⟨behind, same, reaches_of_yields (reached.yields ?_)⟩
  rw [above, same]
  exact ended

/-- The parser goes on from the left operand over the operator to the right one. -/
theorem PhraseRead.joined {op : Operator} {left right : Expr} (precedence : op.precedence = level)
    (before : PhraseRead b depth level ks left (.operator op :: mid))
    (after : PhraseRead b depth (level + 1) mid right rest) :
    PhraseRead b depth level ks (.binary op left right) rest := by
  intro up tokens sum read ended low
  have small := op.precedence_bounds.2
  obtain ⟨up, rfl⟩ : ∃ lower, up = lower + 1 := ⟨4 - level, by omega⟩
  have sums : level + 1 + up = 5 := by omega
  have above : 5 - up = level + 1 := by omega
  have here : op.precedence = 4 - up := by omega
  have heights : left.height ≤ b.maxDepth ∧ right.height ≤ b.maxDepth := by
    simp only [Expr.height] at low
    omega
  have goesOn : EndsBefore (level + 1) (.operator op :: mid) :=
    endsBefore_operator (Nat.lt_succ_of_le (Nat.le_of_eq precedence))
  obtain ⟨between, same, reached⟩ := before sum read goesOn heights.1
  obtain ⟨t, tail, rfl, isOp, same⟩ := exists_of_reading same (by intro _ h; cases h)
  obtain ⟨behind, same, taken⟩ := after sums same (ended.mono (Nat.le_succ _)) heights.2
  have taken := taken.yields (by rw [above, same]; exact ended)
  exact ⟨behind, same, reached.joined isOp here taken low⟩

/-- An operand is read by its parser on the level on which nothing goes on with it. -/
theorem phraseRead_of_operand
    (h : ∀ ⦃tokens : List Token⦄, reading tokens = ks → e.height ≤ b.maxDepth →
      ∃ behind, reading behind = rest ∧ (operand b depth tokens).Yields e behind) :
    PhraseRead b depth 5 ks e rest := by
  intro up tokens sum read _ low
  obtain rfl : up = 0 := by omega
  exact h read low

/-- A sign is read in front of an operand one level deeper. -/
theorem PhraseRead.signed {sign : Sign} (h : PhraseRead b depth 5 ks e rest) :
    PhraseRead b (depth + 1) 5 (.operator sign.operator :: ks) (.signed sign e) rest := by
  refine phraseRead_of_operand fun tokens read low => ?_
  have loose : EndsBefore 6 rest :=
    fun op _ => Nat.lt_of_le_of_lt op.precedence_bounds.2 (by omega)
  obtain ⟨t, tokens, rfl, isSign, read⟩ := exists_of_reading read nofun
  obtain ⟨behind, same, taken⟩ := h (Nat.add_zero 5) read loose (Nat.le_of_succ_le low)
  have tail := (Expr.yields_signTail (b := b) (h := weight_lt_cons t tokens)).2
    ⟨e, taken, low, rfl⟩
  refine ⟨behind, same, ?_⟩
  rw [Expr.operand_eq, Expr.yields_operandWith, isSign]
  cases sign <;> exact tail

/-- A number is read as an operand. -/
theorem phraseRead_number {value : Decimal} :
    PhraseRead b depth 5 (.number value :: rest) (.number value) rest := by
  refine phraseRead_of_operand fun tokens read _ => ?_
  obtain ⟨t, tokens, rfl, isNumber, read⟩ := exists_of_reading_number read
  refine ⟨withImpliedTimes tokens, read, ?_⟩
  rw [Expr.operand_eq, Expr.yields_operandWith, isNumber]
  exact ⟨rfl, rfl⟩

/-- A name is read as an operand where no parenthesis opens behind it. -/
theorem phraseRead_name {name : String} (ended : rest.head? ≠ some .leftParen) :
    PhraseRead b depth 5 (.name name :: rest) (.plain name) rest := by
  refine phraseRead_of_operand fun tokens read _ => ?_
  obtain ⟨t, tokens, rfl, named, rfl⟩ := exists_of_reading read nofun
  refine ⟨tokens, rfl, ?_⟩
  rw [Expr.operand_eq, Expr.yields_operandWith, named]
  exact (Expr.yields_nameTail_end (head?_reading tokens ▸ ended)).2 ⟨rfl, rfl⟩

/-- An expression in parentheses is read as an operand. -/
theorem WholeRead.parenthesized (h : WholeRead b depth ks e (.rightParen :: rest)) :
    PhraseRead b depth 5 (.leftParen :: ks) e rest := by
  refine phraseRead_of_operand fun tokens read low => ?_
  obtain ⟨t, tokens, rfl, opens, read⟩ := exists_of_reading read nofun
  obtain ⟨behind, same, taken⟩ := h read low
  obtain ⟨close, behind, rfl, isClose, same⟩ := exists_of_reading same nofun
  refine ⟨behind, same, ?_⟩
  rw [Expr.operand_eq, Expr.yields_operandWith, opens]
  exact ⟨close, isClose, taken⟩

/-- A name and a parenthesis go on as the lookahead decides. -/
theorem operand_yields_name {name : String} {t u : Token} {tokens behind : List Token}
    (named : t.kind = .name name) (opens : u.kind = .leftParen)
    (lighter : weight tokens < weight (t :: u :: tokens))
    (h : if Expr.beginsDefinition tokens then
        (Expr.definitionTail b (expression b depth) name tokens lighter).Yields e behind
      else (Expr.callTail b (expression b depth) name tokens lighter).Yields e behind) :
    (operand b depth (t :: u :: tokens)).Yields e behind := by
  rw [Expr.operand_eq, Expr.yields_operandWith, named]
  exact (Expr.yields_nameTail_paren opens).2 ⟨lighter, h⟩

/-- A name with parameters, an equals sign and an expression is read as a definition. -/
theorem WholeRead.definition {name : String} {params : List String}
    (h : WholeRead b depth ks e rest) :
    PhraseRead b depth 5
      (.name name :: .leftParen ::
        (nameList params ++ .rightParen :: .operator .assign :: ks))
      (.definition name params e) rest := by
  refine phraseRead_of_operand fun tokens read low => ?_
  obtain ⟨t, tokens, rfl, named, read⟩ := exists_of_reading read nofun
  obtain ⟨u, tokens, rfl, opens, read⟩ := exists_of_reading read nofun
  have lighter : weight tokens < weight (t :: u :: tokens) :=
    Nat.lt_trans (weight_lt_cons u tokens) (weight_lt_cons t _)
  obtain ⟨after, same, list⟩ := parameterList_accepted (b := b) lighter read
  obtain ⟨equals, inner, rfl, isEquals, same⟩ := exists_of_reading same nofun
  obtain ⟨behind, same, bodyRead⟩ := h same (Nat.le_of_succ_le low)
  refine ⟨behind, same, operand_yields_name named opens lighter ?_⟩
  rw [if_pos (beginsDefinition_of_reading read), Expr.yields_definitionTail]
  exact ⟨params, equals, inner, e, list, isEquals, bodyRead, low, rfl⟩

/-- A name with arguments is read as a call where no equals sign follows. -/
theorem ArgumentsRead.call {name : String} {args : List Expr}
    (list : Arguments depth ks args rest) (h : ArgumentsRead b depth ks args rest)
    (ended : rest.head? ≠ some (.operator .assign)) :
    PhraseRead b depth 5 (.name name :: .leftParen :: ks) (.call name args) rest := by
  refine phraseRead_of_operand fun tokens read low => ?_
  obtain ⟨t, tokens, rfl, named, read⟩ := exists_of_reading read nofun
  obtain ⟨u, tokens, rfl, opens, rfl⟩ := exists_of_reading read nofun
  have lighter : weight tokens < weight (t :: u :: tokens) :=
    Nat.lt_trans (weight_lt_cons u tokens) (weight_lt_cons t _)
  obtain ⟨after, found, behindArgs⟩ := list.behindClosing?
  have noDefinition : ¬Expr.beginsDefinition tokens = true := fun begins =>
    ended (behindArgs ▸ (beginsDefinition_iff found).1 begins)
  suffices taken : ∃ behind, reading behind = rest ∧
      (Expr.callTail b (expression b depth) name tokens lighter).Yields (.call name args)
        behind by
    obtain ⟨behind, same, taken⟩ := taken
    refine ⟨behind, same, operand_yields_name named opens lighter ?_⟩
    rw [if_neg noDefinition]
    exact taken
  cases args with
  | nil =>
    cases same : reading tokens with
    | nil => rw [same] at list; cases list
    | cons k ks =>
      rw [same] at list
      cases list
      obtain ⟨close, behind, rfl, isClose, same⟩ := exists_of_reading same nofun
      exact ⟨behind, same, Expr.yields_callTail.2 (.inl ⟨close, rfl, isClose, rfl⟩)⟩
  | cons arg args =>
    have opened := list.head?_ne
    rw [head?_reading] at opened
    obtain ⟨behind, same, taken⟩ :=
      @h name _ _ lighter (List.cons_ne_nil arg args) rfl (Nat.le_of_succ_le low)
    exact ⟨behind, same, Expr.yields_callTail.2 (.inr ⟨opened, arg :: args, taken, low, rfl⟩)⟩

/-- The vectors of a matrix are not higher than the matrix. -/
theorem heights_of_matrix {items columns : List Expr} {limit : Nat}
    (low : Expr.heightAll (.vector items :: columns) ≤ limit) :
    Expr.heightAll items + 1 ≤ limit ∧ Expr.heightAll columns ≤ limit := by
  simp only [Expr.heightAll, Expr.height] at low
  omega

/-- A run of bracketed columns is read as a matrix. -/
theorem ElementsRead.matrix {items columns : List Expr} (list : ElementsRead b depth ks items mid)
    (run : ColumnsRead b depth mid columns rest) (ended : rest.head? ≠ some .leftBracket) :
    PhraseRead b depth 5 (.leftBracket :: ks) (.matrix (.vector items :: columns)) rest := by
  refine phraseRead_of_operand fun tokens read low => ?_
  obtain ⟨t, tokens, rfl, opens, read⟩ := exists_of_reading read nofun
  have heights := heights_of_matrix (Nat.le_of_succ_le low)
  obtain ⟨between, same, taken⟩ :=
    list (weight_lt_cons t tokens) read (Nat.le_of_succ_le heights.1)
  obtain ⟨behind, same, others⟩ := run taken.choose same heights.2 ended
  refine ⟨behind, same, ?_⟩
  rw [Expr.operand_eq, Expr.yields_operandWith, opens]
  exact Expr.yields_matrixTail.2 ⟨items, between, columns, taken.choose, taken, heights.1, others,
    low, rfl⟩

/-- A phrase is read as an expression where no operator goes on with it. -/
theorem PhraseRead.whole (h : PhraseRead b depth 1 ks e rest)
    (ended : startsWithOperator rest = false) : WholeRead b (depth + 1) ks e rest := by
  intro tokens read low
  have loose : ∀ level, EndsBefore level rest := by
    intro level op same
    rw [startsWithOperator_of_head? same] at ended
    cases ended
  obtain ⟨behind, same, reached⟩ := h (rfl : 1 + 4 = 5) read (loose 2) low
  exact ⟨behind, same, reached.yields (same ▸ loose 1)⟩

/-- The last argument is read up to the closing parenthesis. -/
theorem WholeRead.last (h : WholeRead b depth ks e (.rightParen :: rest)) :
    ArgumentsRead b depth ks [e] rest := by
  intro name tokens bound _ _ read low
  obtain ⟨behind, same, taken⟩ := h read (Nat.le_trans (Nat.le_max_left _ _) low)
  obtain ⟨t, behind, rfl, close, same⟩ := exists_of_reading same nofun
  exact ⟨behind, same, Expr.yields_arguments.2 ⟨e, t, behind, taken, .inl ⟨close, rfl, rfl⟩⟩⟩

/-- An argument in front of a comma is read, and then the others. -/
theorem WholeRead.more {next : Expr} {args : List Expr} (h : WholeRead b depth ks e (.comma :: mid))
    (others : ArgumentsRead b depth mid (next :: args) rest) :
    ArgumentsRead b depth ks (e :: next :: args) rest := by
  intro name tokens bound lighter _ read low
  obtain ⟨behind, same, taken⟩ := h read (Nat.le_trans (Nat.le_max_left _ _) low)
  obtain ⟨t, between, rfl, comma, same⟩ := exists_of_reading same nofun
  have lighter := Nat.lt_trans (weight_lt_cons t between) (Nat.lt_trans taken.choose lighter)
  obtain ⟨behind, same, more⟩ := others lighter (List.cons_ne_nil next args) same
    (Nat.le_trans (Nat.le_max_right _ _) low)
  refine ⟨behind, same, Expr.yields_arguments.2 ⟨e, t, between, taken, .inr ?_⟩⟩
  exact ⟨comma, next :: args, lighter, rfl, more⟩

/-- An empty column is read up to its closing bracket. -/
theorem elementsRead_none : ElementsRead b depth (.rightBracket :: rest) [] rest := by
  intro tokens bound _ read _
  obtain ⟨t, behind, rfl, close, same⟩ := exists_of_reading read nofun
  exact ⟨behind, same, Expr.yields_elements.2 ⟨t, behind, rfl, .inl ⟨close, rfl, rfl⟩⟩⟩

/-- An element is followed by the others, behind the comma that is skipped if it is there. -/
theorem WholeRead.element {items : List Expr} {after : List Kind} (h : WholeRead b depth ks e mid)
    (opened : ks.head? ≠ some .rightBracket)
    (skipped : ∀ tokens, reading tokens = mid → reading (Expr.skipComma tokens) = after)
    (others : ElementsRead b depth after items rest) :
    ElementsRead b depth ks (e :: items) rest := by
  intro tokens bound lighter read low
  obtain ⟨between, same, taken⟩ := h read (Nat.le_trans (Nat.le_max_left _ _) low)
  have less := Nat.lt_of_le_of_lt (Expr.weight_skipComma_le between)
    (Nat.lt_trans taken.choose lighter)
  obtain ⟨behind, same, more⟩ := others less (skipped between same)
    (Nat.le_trans (Nat.le_max_right _ _) low)
  obtain ⟨t, tail, rfl, other⟩ := first_token taken (read ▸ opened)
  refine ⟨behind, same, Expr.yields_elements.2 ⟨t, tail, rfl, .inr ⟨other, ?_⟩⟩⟩
  exact ⟨e, between, items, less, taken, rfl, more⟩

/-- A run of columns ends where no bracket opens. -/
theorem columnsRead_none : ColumnsRead b depth rest [] rest := by
  intro tokens bound _ read _ ended
  refine ⟨tokens, read, (Expr.yields_columnRun_end ?_).2 ⟨rfl, rfl⟩⟩
  rw [← head?_reading, read]
  exact ended

/-- A column is read with the columns behind it. -/
theorem ElementsRead.more {items columns : List Expr} (list : ElementsRead b depth ks items mid)
    (run : ColumnsRead b depth mid columns rest) :
    ColumnsRead b depth (.leftBracket :: ks) (.vector items :: columns) rest := by
  intro tokens bound lighter read low ended
  obtain ⟨t, tokens, rfl, opens, read⟩ := exists_of_reading read nofun
  have heights := heights_of_matrix low
  obtain ⟨between, same, taken⟩ :=
    list (weight_lt_cons t tokens) read (Nat.le_of_succ_le heights.1)
  have lighter := Nat.lt_trans taken.choose lighter
  obtain ⟨behind, same, others⟩ := run lighter same heights.2 ended
  refine ⟨behind, same, (Expr.yields_columnRun_bracket opens).2 ?_⟩
  exact ⟨items, between, columns, lighter, taken, heights.1, rfl, others⟩

end Rules

/-! ## Derivations -/

mutual

/-- What the grammar derives, the parser reads. -/
theorem Phrase.read : ∀ {depth level : Nat} {ks rest : List Kind} {e : Expr},
    Phrase depth level ks e rest → PhraseRead b depth level ks e rest
  | _, _, _, _, _, .tighter small phrase => .tighter small phrase.read
  | _, _, _, _, _, .joined precedence left right => .joined precedence left.read right.read
  | _, _, _, _, _, .signed phrase => .signed phrase.read
  | _, _, _, _, _, .number => phraseRead_number
  | _, _, _, _, _, .name ended => phraseRead_name ended
  | _, _, _, _, _, .parenthesized whole => whole.read.parenthesized
  | _, _, _, _, _, .definition whole => whole.read.definition
  | _, _, _, _, _, .call args ended => args.read.call args ended
  | _, _, _, _, _, .matrix (.more items columns) ended => items.read.matrix columns.read ended

/-- An expression that the grammar derives is read. -/
theorem Whole.read : ∀ {depth : Nat} {ks rest : List Kind} {e : Expr},
    Whole depth ks e rest → WholeRead b depth ks e rest
  | _, _, _, _, .intro phrase ended => phrase.read.whole ended

/-- Arguments that the grammar derives are read. -/
theorem Arguments.read : ∀ {depth : Nat} {ks rest : List Kind} {args : List Expr},
    Arguments depth ks args rest → ArgumentsRead b depth ks args rest
  | _, _, _, _, .none => fun _ _ _ _ nonempty => absurd rfl nonempty
  | _, _, _, _, .last whole => whole.read.last
  | _, _, _, _, .more whole args => whole.read.more args.read

/-- Elements that the grammar derives are read. -/
theorem Elements.read : ∀ {depth : Nat} {ks rest : List Kind} {items : List Expr},
    Elements depth ks items rest → ElementsRead b depth ks items rest
  | _, _, _, _, .none => elementsRead_none
  | _, _, _, _, .plain whole items =>
    whole.read.element whole.head?_ne.2.1
      (fun _ same => reading_skipComma_of_ne same items.head?_ne_comma) items.read
  | _, _, _, _, .comma whole items =>
    whole.read.element whole.head?_ne.2.1 (fun _ => reading_skipComma) items.read

/-- Columns that the grammar derives are read. -/
theorem Columns.read : ∀ {depth : Nat} {ks rest : List Kind} {columns : List Expr},
    Columns depth ks columns rest → ColumnsRead b depth ks columns rest
  | _, _, _, _, .none => columnsRead_none
  | _, _, _, _, .more items columns => items.read.more columns.read

end

end Reckon.Grammar
