import Reckon.Proofs.Syntax.Lookahead
import Reckon.Proofs.Syntax.Procedures

/-!
# What the parser reads, the grammar derives

Every result of the parser comes with a derivation of the same stretch of tokens, nested at most as
deep as the parser was allowed to go, and with a tree that is not higher than the limit. The
lists behind brackets are handled for any parser of expressions that is right; the induction on the
levels of nesting comes last and ties them together.
-/

namespace Reckon.Grammar

open Token
open Reckon.Expr (Parser Bounds Step operandWith operand expression levels chain binaryLevel
  arguments elements columnRun parameters operatorAhead)

/-- Whether every operator that is next binds less tightly than the given level. -/
def LooserAhead (level : Nat) (tokens : List Token) : Prop :=
  ∀ op, tokens.head?.map Token.kind = some (.operator op) → op.precedence < level

/-- On the level of the operands no operator is tight enough to go on with. -/
theorem looserAhead_five (tokens : List Token) : LooserAhead 5 tokens :=
  fun op _ => Nat.lt_succ_of_le op.precedence_bounds.2

/-- In front of an operator of a level, or of none. -/
theorem looserAhead_of_not_operatorAhead {level : Nat} {tokens : List Token}
    (loose : LooserAhead (level + 1) tokens) (ended : operatorAhead level tokens = false) :
    LooserAhead level tokens := by
  intro op isOp
  have bound := loose op isOp
  have other : op.precedence ≠ level := by
    cases tokens with
    | nil => cases isOp
    | cons t rest =>
      have same : t.kind = .operator op := Option.some.inj isOp
      rw [operatorAhead, same] at ended
      simpa using ended
  omega

/-- Where only looser operators may be ahead, the reading starts with no operator. -/
theorem startsWithOperator_reading {tokens : List Token} (loose : LooserAhead 1 tokens) :
    startsWithOperator (reading tokens) = false := by
  unfold startsWithOperator
  split
  · next op rest same =>
    have isOp : tokens.head?.map Token.kind = some (.operator op) := by
      rw [← head?_reading, same]
      rfl
    have bound := loose op isOp
    have := op.precedence_bounds.1
    omega
  · rfl

variable {b : Bounds} {depth : Nat} {bound : Nat}

/-- A parser of phrases of one level is right: what it yields is derived and not too high, and it
leaves no operator that would belong to the phrase. -/
def ReadsPhrases (b : Bounds) (depth level : Nat) (p : Parser Expr) : Prop :=
  ∀ ⦃tokens stop : List Token⦄ ⦃e : Expr⦄, (p tokens).Yields e stop →
    Phrase depth level (reading tokens) e (reading stop) ∧ LooserAhead level stop ∧
      e.height ≤ b.maxDepth

/-- A parser of expressions is right. -/
def ReadsWholes (b : Bounds) (depth : Nat) (p : Parser Expr) : Prop :=
  ∀ ⦃tokens stop : List Token⦄ ⦃e : Expr⦄, (p tokens).Yields e stop →
    Whole depth (reading tokens) e (reading stop) ∧ e.height ≤ b.maxDepth

/-- A chain extends the phrase on its left, one operator and operand after the other. -/
theorem chain_sound {level : Nat} {p : Parser Expr} (sound : ReadsPhrases b depth (level + 1) p)
    {ks : List Kind} {left e : Expr} {tokens stop : List Token} {h : weight tokens < bound}
    (before : Phrase depth level ks left (reading tokens)) (loose : LooserAhead (level + 1) tokens)
    (low : left.height ≤ b.maxDepth)
    (yielded : (chain b p level left tokens h).Yields e stop) :
    Phrase depth level ks e (reading stop) ∧ LooserAhead level stop ∧ e.height ≤ b.maxDepth := by
  induction size : weight tokens using Nat.strongRecOn generalizing left tokens with
  | ind size' ih =>
    by_cases ahead : operatorAhead level tokens = true
    · obtain ⟨t, rest, op, rfl, isOp, same⟩ := Expr.exists_of_operatorAhead ahead
      obtain ⟨right, behind, lighter, read, low', goesOn⟩ :=
        (Expr.yields_chain_operator isOp same).1 yielded
      obtain ⟨phrase, loose', _⟩ := sound read
      rw [reading_of_kind isOp nofun] at before
      have smaller : weight behind < size' := by
        have taken := weight_lt_cons t rest
        have := read.choose
        omega
      exact ih _ smaller (.joined same before phrase) loose' low' goesOn rfl
    · have ended : operatorAhead level tokens = false := eq_false_of_ne_true ahead
      obtain ⟨rfl, rfl⟩ := (Expr.yields_chain_end ended).1 yielded
      exact ⟨before, looserAhead_of_not_operatorAhead loose ended, low⟩

/-- A level of operators reads phrases if its operands are phrases. -/
theorem binaryLevel_sound {level : Nat} {p : Parser Expr} (small : level < 5)
    (sound : ReadsPhrases b depth (level + 1) p) :
    ReadsPhrases b depth level (binaryLevel b p level) := by
  intro tokens stop e yielded
  obtain ⟨left, rest, _, read, goesOn⟩ := Expr.yields_binaryLevel.1 yielded
  obtain ⟨phrase, loose, low⟩ := sound read
  exact chain_sound sound (.tighter small phrase) loose low goesOn

/-- All levels of operators together read expressions if the operands are phrases. -/
theorem levels_sound {p : Parser Expr} (sound : ReadsPhrases b depth 5 p) :
    ReadsWholes b (depth + 1) (levels b p) := by
  have powers := binaryLevel_sound (by omega) sound
  have products := binaryLevel_sound (by omega) powers
  have sums := binaryLevel_sound (by omega) products
  have comparisons := binaryLevel_sound (by omega) sums
  intro tokens stop e yielded
  obtain ⟨phrase, loose, low⟩ := comparisons yielded
  exact ⟨.intro phrase (startsWithOperator_reading loose), low⟩

section Lists

variable {nested : Parser Expr}

/-- Arguments that the parser reads are arguments of the grammar, and there is at least one. -/
theorem arguments_sound (sound : ReadsWholes b depth nested) {name : String}
    {tokens stop : List Token} {h : weight tokens < bound} {args : List Expr}
    (yielded : (arguments b nested name tokens h).Yields args stop) :
    Arguments depth (reading tokens) args (reading stop) ∧ args ≠ [] := by
  induction size : weight tokens using Nat.strongRecOn generalizing tokens args with
  | ind size' ih =>
    obtain ⟨arg, t, behind, read, ends | goesOn⟩ := Expr.yields_arguments.1 yielded
    · obtain ⟨close, rfl, rfl⟩ := ends
      have whole := (sound read).1
      rw [reading_of_kind close nofun] at whole
      exact ⟨.last whole, nofun⟩
    · obtain ⟨comma, more, _, rfl, tail⟩ := goesOn
      have whole := (sound read).1
      rw [reading_of_kind comma nofun] at whole
      have smaller : weight behind < size' := by
        have taken := weight_lt_cons t behind
        have := read.choose
        omega
      obtain ⟨rest, nonempty⟩ := ih _ smaller tail rfl
      obtain ⟨next, more, rfl⟩ := List.exists_cons_of_ne_nil nonempty
      exact ⟨.more whole rest, nofun⟩

/-- Elements that the parser reads are elements of the grammar. -/
theorem elements_sound (sound : ReadsWholes b depth nested) {tokens stop : List Token}
    {h : weight tokens < bound} {items : List Expr}
    (yielded : (elements b nested tokens h).Yields items stop) :
    Elements depth (reading tokens) items (reading stop) := by
  induction size : weight tokens using Nat.strongRecOn generalizing tokens items with
  | ind size' ih =>
    obtain ⟨t, rest, rfl, ends | goesOn⟩ := Expr.yields_elements.1 yielded
    · obtain ⟨close, rfl, rfl⟩ := ends
      rw [reading_of_kind close nofun]
      exact .none
    · obtain ⟨_, item, behind, more, _, read, rfl, tail⟩ := goesOn
      have whole := (sound read).1
      have smaller : weight (Expr.skipComma behind) < size' := by
        have skipped := Expr.weight_skipComma_le behind
        have := read.choose
        omega
      have rest := ih _ smaller tail rfl
      cases behind with
      | nil => exact .plain whole rest
      | cons u us =>
        by_cases comma : u.kind = .comma
        · rw [reading_of_kind comma nofun] at whole
          rw [Expr.skipComma, if_pos comma] at rest
          exact .comma whole rest
        · rw [Expr.skipComma, if_neg comma] at rest
          exact .plain whole rest

/-- A run of columns that the parser reads is one of the grammar, and no further bracket opens
behind it. -/
theorem columnRun_sound (sound : ReadsWholes b depth nested) {tokens stop : List Token}
    {h : weight tokens < bound} {columns : List Expr}
    (yielded : (columnRun b nested tokens h).Yields columns stop) :
    Columns depth (reading tokens) columns (reading stop) ∧
      (reading stop).head? ≠ some .leftBracket := by
  induction size : weight tokens using Nat.strongRecOn generalizing tokens columns with
  | ind size' ih =>
    by_cases opens : tokens.head?.map Token.kind = some .leftBracket
    · obtain ⟨t, rest, rfl, bracket⟩ := Expr.exists_of_head? opens
      obtain ⟨items, behind, more, _, inner, _, rfl, tail⟩ :=
        (Expr.yields_columnRun_bracket bracket).1 yielded
      have smaller : weight behind < size' := by
        have taken := weight_lt_cons t rest
        have := inner.choose
        omega
      obtain ⟨run, ended⟩ := ih _ smaller tail rfl
      rw [reading_of_kind bracket nofun]
      exact ⟨.more (elements_sound sound inner) run, ended⟩
    · obtain ⟨rfl, rfl⟩ := (Expr.yields_columnRun_end opens).1 yielded
      exact ⟨.none, head?_reading tokens ▸ opens⟩

end Lists

/-- Parameters are read as their names with commas between them. -/
theorem parameters_sound {tokens stop : List Token} {h : weight tokens < bound}
    {params : List String} (yielded : (parameters b tokens h).Yields params stop) :
    reading tokens = nameList params ++ reading stop ∧ params ≠ [] := by
  induction size : weight tokens using Nat.strongRecOn generalizing tokens params with
  | ind size' ih =>
    obtain ⟨t, rest, name, rfl, named, ends | goesOn⟩ := Expr.yields_parameters.1 yielded
    · obtain ⟨_, rfl, rfl⟩ := ends
      exact ⟨reading_of_kind named nofun rest, nofun⟩
    · obtain ⟨u, after, more, _, rfl, comma, rfl, tail⟩ := goesOn
      have smaller : weight after < size' := by
        have takenName := weight_lt_cons t (u :: after)
        have takenComma := weight_lt_cons u after
        omega
      obtain ⟨read, nonempty⟩ := ih _ smaller tail rfl
      obtain ⟨next, more, rfl⟩ := List.exists_cons_of_ne_nil nonempty
      rw [reading_of_kind named nofun, reading_of_kind comma nofun, read]
      exact ⟨rfl, nofun⟩

/-- Parameters that the parser reads are names separated by commas in front of a closing
parenthesis. -/
theorem parameterList_sound {tokens stop : List Token} {h : weight tokens < bound}
    {params : List String} (yielded : (Expr.parameterList b tokens h).Yields params stop) :
    reading tokens = nameList params ++ .rightParen :: reading stop := by
  obtain ⟨t, close, ⟨rfl, rfl⟩ | ⟨_, read⟩⟩ := Expr.yields_parameterList.1 yielded
  · exact reading_of_kind close nofun stop
  · rw [(parameters_sound read).1, reading_of_kind close nofun]

/-- A definition that the parser reads is one of the grammar, and it is not too high. -/
theorem definitionTail_sound {nested : Parser Expr} (sound : ReadsWholes b depth nested)
    {name : String} {tokens stop : List Token} {h : weight tokens < bound} {e : Expr}
    (yielded : (Expr.definitionTail b nested name tokens h).Yields e stop) :
    Phrase depth 5 (.name name :: .leftParen :: reading tokens) e (reading stop) ∧
      e.height ≤ b.maxDepth := by
  obtain ⟨params, t, behind, body, list, equals, read, low, rfl⟩ :=
    Expr.yields_definitionTail.1 yielded
  rw [parameterList_sound list, reading_of_kind equals nofun]
  exact ⟨.definition (sound read).1, low⟩

/-- A call that the parser reads is one of the grammar, and it is not too high. -/
theorem callTail_sound {nested : Parser Expr} (sound : ReadsWholes b depth nested)
    (positive : 0 < b.maxDepth) {name : String} {tokens stop : List Token}
    {h : weight tokens < bound} {e : Expr}
    (yielded : (Expr.callTail b nested name tokens h).Yields e stop)
    (noDefinition : Expr.beginsDefinition tokens = false) :
    Phrase depth 5 (.name name :: .leftParen :: reading tokens) e (reading stop) ∧
      e.height ≤ b.maxDepth := by
  -- The arguments end with the matching parenthesis, so what is left is what the lookahead saw.
  have call : ∀ args, Arguments depth (reading tokens) args (reading stop) →
      Phrase depth 5 (.name name :: .leftParen :: reading tokens) (.call name args)
        (reading stop) := by
    intro args read
    obtain ⟨behind, found, same⟩ := read.behindClosing?
    refine .call read fun equals => ?_
    rw [← same] at equals
    rw [(beginsDefinition_iff found).2 equals] at noDefinition
    cases noDefinition
  rcases Expr.yields_callTail.1 yielded with ⟨t, rfl, close, rfl⟩ | ⟨_, args, read, low, rfl⟩
  · refine ⟨call [] ?_, positive⟩
    rw [reading_of_kind close nofun]
    exact .none
  · exact ⟨call args (arguments_sound sound read).1, low⟩

/-- What the parser reads behind a name is a phrase of the grammar, and it is not too high. -/
theorem nameTail_sound {nested : Parser Expr} (sound : ReadsWholes b depth nested)
    (positive : 0 < b.maxDepth) {name : String} {tokens stop : List Token}
    {h : weight tokens < bound} {e : Expr}
    (yielded : (Expr.nameTail b nested name tokens h).Yields e stop) :
    Phrase depth 5 (.name name :: reading tokens) e (reading stop) ∧ e.height ≤ b.maxDepth := by
  by_cases opens : tokens.head?.map Token.kind = some .leftParen
  · obtain ⟨t, rest, rfl, paren⟩ := Expr.exists_of_head? opens
    obtain ⟨_, yielded⟩ := (Expr.yields_nameTail_paren paren).1 yielded
    rw [reading_of_kind paren nofun]
    by_cases begins : Expr.beginsDefinition rest = true
    · rw [if_pos begins] at yielded
      exact definitionTail_sound sound yielded
    · rw [if_neg begins] at yielded
      exact callTail_sound sound positive yielded (eq_false_of_ne_true begins)
  · obtain ⟨rfl, rfl⟩ := (Expr.yields_nameTail_end opens).1 yielded
    exact ⟨.name (head?_reading tokens ▸ opens), positive⟩

/-- A matrix that the parser reads is one of the grammar, and it is not too high. -/
theorem matrixTail_sound {nested : Parser Expr} (sound : ReadsWholes b depth nested)
    {tokens stop : List Token} {h : weight tokens < bound} {e : Expr}
    (yielded : (Expr.matrixTail b nested tokens h).Yields e stop) :
    Phrase depth 5 (.leftBracket :: reading tokens) e (reading stop) ∧
      e.height ≤ b.maxDepth := by
  obtain ⟨items, behind, columns, _, inner, _, run, low, rfl⟩ := Expr.yields_matrixTail.1 yielded
  obtain ⟨read, ended⟩ := columnRun_sound sound run
  exact ⟨.matrix (.more (elements_sound sound inner) read) ended, low⟩

/-- The parser of what may stand behind a sign is right: it goes one level deeper. -/
def ReadsBelowSign (depth : Nat) (p : Parser Expr) : Prop :=
  ∀ ⦃tokens stop : List Token⦄ ⦃e : Expr⦄, (p tokens).Yields e stop →
    ∃ inner, depth = inner + 1 ∧ Phrase inner 5 (reading tokens) e (reading stop)

/-- A signed operand that the parser reads is one of the grammar, and it is not too high. -/
theorem signTail_sound {signed : Parser Expr} (sign : Sign) (sound : ReadsBelowSign depth signed)
    {tokens stop : List Token} {h : weight tokens < bound} {e : Expr}
    (yielded : (Expr.signTail b signed sign tokens h).Yields e stop) :
    Phrase depth 5 (.operator sign.operator :: reading tokens) e (reading stop) ∧
      e.height ≤ b.maxDepth := by
  obtain ⟨inner, read, low, rfl⟩ := Expr.yields_signTail.1 yielded
  obtain ⟨depth', rfl, phrase⟩ := sound read
  exact ⟨.signed phrase, low⟩

/-- An operand that the parser reads is one of the grammar, if what it nests is. -/
theorem operandWith_sound {signed nested : Parser Expr} (below : ReadsBelowSign depth signed)
    (sound : ReadsWholes b depth nested) (positive : 0 < b.maxDepth) :
    ReadsPhrases b depth 5 (operandWith b signed nested) := by
  intro tokens stop e yielded
  suffices read : Phrase depth 5 (reading tokens) e (reading stop) ∧ e.height ≤ b.maxDepth from
    ⟨read.1, looserAhead_five stop, read.2⟩
  cases tokens with
  | nil => exact absurd yielded Expr.not_yields_operandWith_nil
  | cons t rest =>
    have yielded := Expr.yields_operandWith.1 yielded
    split at yielded
    · next minus =>
      rw [reading_of_kind minus nofun]
      exact signTail_sound .negative below yielded
    · next plus =>
      rw [reading_of_kind plus nofun]
      exact signTail_sound .positive below yielded
    · next value number =>
      obtain ⟨rfl, rfl⟩ := yielded
      rw [reading_number (isNumber_eq_true number), number]
      exact ⟨.number, positive⟩
    · next name named =>
      rw [reading_of_kind named nofun]
      exact nameTail_sound sound positive yielded
    · next opens =>
      obtain ⟨close, isClose, read⟩ := yielded
      obtain ⟨whole, low⟩ := sound read
      rw [reading_of_kind isClose nofun] at whole
      rw [reading_of_kind opens nofun]
      exact ⟨.parenthesized whole, low⟩
    · next opens =>
      rw [reading_of_kind opens nofun]
      exact matrixTail_sound sound yielded
    · exact yielded.elim

/-- With some levels of nesting allowed, an operand is derived within that depth. -/
theorem operand_sound (positive : 0 < b.maxDepth) (room : Nat) :
    ReadsPhrases b room 5 (operand b room) := by
  induction room with
  | zero => exact operandWith_sound nofun nofun positive
  | succ room ih =>
    have below : ReadsBelowSign (room + 1) (operand b room) :=
      fun _ _ _ yielded => ⟨room, rfl, (ih yielded).1⟩
    exact operandWith_sound below (levels_sound ih) positive

/-- What the parser reads as an expression, the grammar derives. -/
theorem expression_sound (positive : 0 < b.maxDepth) (room : Nat) :
    ReadsWholes b room (expression b room) := by
  cases room with
  | zero => exact nofun
  | succ room => exact levels_sound (operand_sound positive room)

end Reckon.Grammar
