import Reckon.Proofs.Syntax.Outcome

/-!
# The procedures of the parser, one by one

What each procedure of the parser yields, in terms of what the procedures below it yield. Every
statement is an equivalence: its two directions serve the two halves of the agreement between the
parser and the grammar.
-/

namespace Reckon.Expr

open Token

variable {b : Bounds} {operand signed nested : Parser Expr} {bound : Nat}

/-- A stream whose first token is of a kind has a first token. -/
theorem exists_of_head? {tokens : List Token} {k : Token.Kind}
    (h : tokens.head?.map Token.kind = some k) : ∃ t rest, tokens = t :: rest ∧ t.kind = k := by
  cases tokens with
  | nil => cases h
  | cons t rest => exact ⟨t, rest, rfl, Option.some.inj h⟩

/-- Whether an operator of the given level is the next token. -/
def operatorAhead (level : Nat) : List Token → Bool
  | t :: _ =>
    match t.kind with
    | .operator op => op.precedence == level
    | _ => false
  | [] => false

/-- An operator of a level that is ahead is the first token. -/
theorem exists_of_operatorAhead {level : Nat} {tokens : List Token}
    (h : operatorAhead level tokens = true) :
    ∃ t rest op, tokens = t :: rest ∧ t.kind = .operator op ∧ op.precedence = level := by
  cases tokens with
  | nil => cases h
  | cons t rest =>
    rw [operatorAhead] at h
    split at h
    · next op isOp => exact ⟨t, rest, op, rfl, isOp, by simpa using h⟩
    · cases h

/-- A chain ends in front of anything but an operator of its level. -/
theorem chain_end {level : Nat} {left : Expr} {tokens : List Token} {h : weight tokens < bound}
    (ended : operatorAhead level tokens = false) :
    chain b operand level left tokens h = .done left tokens h := by
  cases tokens with
  | nil => rw [chain]
  | cons t rest =>
    rw [chain]
    split
    · next op isOp =>
      have other : ¬op.precedence = level := by
        intro same
        rw [operatorAhead, isOp] at ended
        exact absurd same (by simpa using ended)
      rw [if_neg other]
    · rfl

/-- Behind an operator of its level a chain takes an operand, checks the height and goes on. -/
theorem chain_operator {level : Nat} {left : Expr} {t : Token} {rest : List Token}
    {h : weight (t :: rest) < bound} {op : Operator} (isOp : t.kind = .operator op)
    (same : op.precedence = level) :
    chain b operand level left (t :: rest) h =
      ((operand rest).weaken (Nat.le_of_lt (Nat.lt_trans (weight_lt_cons t rest) h))).andThen
        fun right behind lighter =>
          (b.bounded (.binary op left right) behind lighter).andThen fun joined stop less =>
            chain b operand level joined stop less := by
  have opened : ∀ op', t.kind = .operator op' → op' = op := by
    intro op' isOp'
    rw [isOp] at isOp'
    exact (Token.Kind.operator.inj isOp').symm
  rw [chain]
  split
  · next op' isOp' =>
    obtain rfl := opened op' isOp'
    rw [if_pos same]
    cases operand rest with
    | stuck fault stop => rfl
    | done right behind lighter =>
      simp only [Step.weaken, Step.andThen, Bounds.bounded]
      split <;> rfl
  · next noOp => exact absurd isOp (noOp op)

/-- A chain without an operator of its level ahead ends with its left operand. -/
theorem yields_chain_end {level : Nat} {left result : Expr} {tokens stop : List Token}
    {h : weight tokens < bound} (ended : operatorAhead level tokens = false) :
    (chain b operand level left tokens h).Yields result stop ↔ left = result ∧ tokens = stop := by
  rw [chain_end ended]
  exact Step.yields_done

/-- A chain with an operator of its level ahead reads the right operand and goes on with the two
together. -/
theorem yields_chain_operator {level : Nat} {left result : Expr} {t : Token}
    {rest stop : List Token} {h : weight (t :: rest) < bound} {op : Operator}
    (isOp : t.kind = .operator op) (same : op.precedence = level) :
    (chain b operand level left (t :: rest) h).Yields result stop ↔
      ∃ right behind, ∃ lighter : weight behind < bound,
        (operand rest).Yields right behind ∧ (binary op left right).height ≤ b.maxDepth ∧
          (chain b operand level (.binary op left right) behind lighter).Yields result stop := by
  rw [chain_operator isOp same, Step.yields_andThen]
  constructor
  · rintro ⟨right, behind, lighter, read, goesOn⟩
    obtain ⟨joined, _, _, bounded, tail⟩ := Step.yields_andThen.1 goesOn
    obtain ⟨low, rfl, rfl⟩ := Bounds.yields_bounded.1 bounded
    exact ⟨right, behind, lighter, Step.yields_weaken.1 read, low, tail⟩
  · rintro ⟨right, behind, lighter, read, low, tail⟩
    refine ⟨right, behind, lighter, Step.yields_weaken.2 read, Step.yields_andThen.2 ?_⟩
    exact ⟨_, behind, lighter, Bounds.yields_bounded.2 ⟨low, rfl, rfl⟩, tail⟩

/-- A level of operators reads one operand of the tighter level and then the chain behind it. -/
theorem yields_binaryLevel {level : Nat} {tokens stop : List Token} {result : Expr} :
    (binaryLevel b operand level tokens).Yields result stop ↔
      ∃ left rest, ∃ lighter : weight rest < weight tokens, (operand tokens).Yields left rest ∧
        (chain b operand level left rest lighter).Yields result stop :=
  Step.yields_andThen

/-- Arguments: one, and behind it the closing parenthesis or a comma and more of them. -/
theorem arguments_eq {name : String} {tokens : List Token} {h : weight tokens < bound} :
    arguments b nested name tokens h =
      ((nested tokens).weaken (Nat.le_of_lt h)).andThen fun arg rest lighter =>
        match rest with
        | [] => b.complain (.noArgumentSeparator name) []
        | t :: behind =>
          if t.kind = .comma then
            (arguments b nested name behind (Nat.lt_trans (weight_lt_cons t behind) lighter)).map
              (arg :: ·)
          else if t.kind = .rightParen then
            .done [arg] behind (Nat.lt_trans (weight_lt_cons t behind) lighter)
          else b.complain (.noArgumentSeparator name) (t :: behind) := by
  rw [arguments]
  cases nested tokens with
  | stuck fault stop => rfl
  | done arg rest lighter => cases rest <;> rfl

/-- Arguments are expressions with commas between them, up to the closing parenthesis. -/
theorem yields_arguments {name : String} {tokens stop : List Token} {h : weight tokens < bound}
    {args : List Expr} :
    (arguments b nested name tokens h).Yields args stop ↔
      ∃ arg t behind, (nested tokens).Yields arg (t :: behind) ∧
        ((t.kind = .rightParen ∧ args = [arg] ∧ behind = stop) ∨
          (t.kind = .comma ∧ ∃ more, ∃ lighter : weight behind < bound,
            args = arg :: more ∧ (arguments b nested name behind lighter).Yields more stop)) := by
  rw [arguments_eq, Step.yields_andThen]
  constructor
  · rintro ⟨arg, rest, lighter, read, goesOn⟩
    cases rest with
    | nil => exact absurd goesOn Bounds.not_yields_complain
    | cons t behind =>
      refine ⟨arg, t, behind, Step.yields_weaken.1 read, ?_⟩
      simp only at goesOn
      split at goesOn
      · next comma =>
        obtain ⟨more, tail, rfl⟩ := Step.yields_map.1 goesOn
        exact .inr ⟨comma, more, _, rfl, tail⟩
      · split at goesOn
        · next close =>
          obtain ⟨rfl, rfl⟩ := Step.yields_done.1 goesOn
          exact .inl ⟨close, rfl, rfl⟩
        · exact absurd goesOn Bounds.not_yields_complain
  · rintro ⟨arg, t, behind, read, cases⟩
    have lighter := Nat.lt_trans read.choose h
    refine ⟨arg, t :: behind, lighter, Step.yields_weaken.2 read, ?_⟩
    rcases cases with ⟨close, rfl, rfl⟩ | ⟨comma, more, _, rfl, tail⟩
    · simp [close]
    · simp only [comma, if_true]
      exact Step.yields_map.2 ⟨more, tail, rfl⟩

/-- Elements: one, and more of them behind the comma that is skipped if it is there. -/
theorem elements_cons {t : Token} {rest : List Token} {h : weight (t :: rest) < bound}
    (more : t.kind ≠ .rightBracket) :
    elements b nested (t :: rest) h =
      ((nested (t :: rest)).weaken (Nat.le_of_lt h)).andThen fun item behind lighter =>
        (elements b nested (skipComma behind)
          (Nat.lt_of_le_of_lt (weight_skipComma_le behind) lighter)).map (item :: ·) := by
  rw [elements, if_neg more]
  cases nested (t :: rest) <;> rfl

/-- Elements are expressions up to the closing bracket, and the commas between them may be left out.
-/
theorem yields_elements {tokens stop : List Token} {h : weight tokens < bound}
    {items : List Expr} :
    (elements b nested tokens h).Yields items stop ↔
      ∃ t rest, tokens = t :: rest ∧
        ((t.kind = .rightBracket ∧ items = [] ∧ rest = stop) ∨
          (t.kind ≠ .rightBracket ∧ ∃ item behind more,
            ∃ lighter : weight (skipComma behind) < bound,
              (nested tokens).Yields item behind ∧ items = item :: more ∧
                (elements b nested (skipComma behind) lighter).Yields more stop)) := by
  cases tokens with
  | nil =>
    rw [elements]
    simp
  | cons t rest =>
    have alone : ∀ p : Token → List Token → Prop,
        (∃ u us, t :: rest = u :: us ∧ p u us) ↔ p t rest := by
      intro p
      constructor
      · rintro ⟨u, us, eq, holds⟩
        obtain ⟨rfl, rfl⟩ := List.cons.inj eq
        exact holds
      · intro holds
        exact ⟨t, rest, rfl, holds⟩
    rw [alone]
    by_cases close : t.kind = .rightBracket
    · rw [elements, if_pos close, Step.yields_done]
      simp [close, eq_comm]
    · rw [elements_cons close, Step.yields_andThen]
      constructor
      · rintro ⟨item, behind, _, read, goesOn⟩
        obtain ⟨more, tail, rfl⟩ := Step.yields_map.1 goesOn
        exact .inr ⟨close, item, behind, more, _, Step.yields_weaken.1 read, rfl, tail⟩
      · rintro (⟨isClose, _⟩ | ⟨_, item, behind, more, _, read, rfl, tail⟩)
        · exact absurd isClose close
        · exact ⟨item, behind, Nat.lt_trans read.choose h, Step.yields_weaken.2 read,
            Step.yields_map.2 ⟨more, tail, rfl⟩⟩

/-- A vector is its elements, if it is not too high. -/
theorem yields_vectorTail {tokens stop : List Token} {h : weight tokens < bound} {e : Expr} :
    (vectorTail b nested tokens h).Yields e stop ↔
      ∃ items, (elements b nested tokens h).Yields items stop ∧
        (vector items).height ≤ b.maxDepth ∧ vector items = e := by
  rw [vectorTail, Step.yields_andThen]
  constructor
  · rintro ⟨items, rest, _, read, bounded⟩
    obtain ⟨low, same, rfl⟩ := Bounds.yields_bounded.1 bounded
    exact ⟨items, read, low, same⟩
  · rintro ⟨items, read, low, same⟩
    exact ⟨items, stop, read.choose, read, Bounds.yields_bounded.2 ⟨low, same, rfl⟩⟩

/-- Vectors are taken as long as one more begins. -/
theorem columnRun_bracket {t : Token} {rest : List Token} {h : weight (t :: rest) < bound}
    (opens : t.kind = .leftBracket) :
    columnRun b nested (t :: rest) h =
      ((vectorTail b nested rest (weight_lt_cons t rest)).weaken (Nat.le_of_lt h)).andThen
        fun column behind lighter => (columnRun b nested behind lighter).map (column :: ·) := by
  rw [columnRun, if_pos opens]
  cases vectorTail b nested rest (weight_lt_cons t rest) <;> rfl

/-- A run of columns ends where no bracket opens. -/
theorem columnRun_end {tokens : List Token} {h : weight tokens < bound}
    (ended : tokens.head?.map Token.kind ≠ some .leftBracket) :
    columnRun b nested tokens h = .done [] tokens h := by
  cases tokens with
  | nil => rw [columnRun]
  | cons t rest =>
    have other : ¬t.kind = .leftBracket := fun opens => ended (congrArg some opens)
    rw [columnRun, if_neg other]

/-- A run of columns with a bracket ahead reads one column and then the others. -/
theorem yields_columnRun_bracket {t : Token} {rest stop : List Token}
    {h : weight (t :: rest) < bound} {columns : List Expr} (opens : t.kind = .leftBracket) :
    (columnRun b nested (t :: rest) h).Yields columns stop ↔
      ∃ items behind more, ∃ lighter : weight behind < bound,
        (elements b nested rest (weight_lt_cons t rest)).Yields items behind ∧
          (vector items).height ≤ b.maxDepth ∧ columns = .vector items :: more ∧
            (columnRun b nested behind lighter).Yields more stop := by
  rw [columnRun_bracket opens, Step.yields_andThen]
  constructor
  · rintro ⟨column, behind, _, read, goesOn⟩
    obtain ⟨more, tail, rfl⟩ := Step.yields_map.1 goesOn
    obtain ⟨items, inner, low, rfl⟩ := yields_vectorTail.1 (Step.yields_weaken.1 read)
    exact ⟨items, behind, more, _, inner, low, rfl, tail⟩
  · rintro ⟨items, behind, more, lighter, inner, low, rfl, tail⟩
    have read := yields_vectorTail.2 ⟨items, inner, low, rfl⟩
    exact ⟨_, behind, lighter, Step.yields_weaken.2 read, Step.yields_map.2 ⟨more, tail, rfl⟩⟩

/-- A run of columns reads nothing where no bracket opens. -/
theorem yields_columnRun_end {tokens stop : List Token} {h : weight tokens < bound}
    {columns : List Expr} (ended : tokens.head?.map Token.kind ≠ some .leftBracket) :
    (columnRun b nested tokens h).Yields columns stop ↔ columns = [] ∧ tokens = stop := by
  rw [eq_comm (a := columns), columnRun_end ended]
  exact Step.yields_done

/-- A matrix is a first column and a run of others, if it is not too high. -/
theorem yields_matrixTail {tokens stop : List Token} {h : weight tokens < bound} {e : Expr} :
    (matrixTail b nested tokens h).Yields e stop ↔
      ∃ items behind columns, ∃ lighter : weight behind < bound,
        (elements b nested tokens h).Yields items behind ∧ (vector items).height ≤ b.maxDepth ∧
          (columnRun b nested behind lighter).Yields columns stop ∧
            (matrix (.vector items :: columns)).height ≤ b.maxDepth ∧
              matrix (.vector items :: columns) = e := by
  rw [matrixTail, Step.yields_andThen]
  constructor
  · rintro ⟨column, behind, lighter, read, goesOn⟩
    obtain ⟨items, inner, low, rfl⟩ := yields_vectorTail.1 read
    obtain ⟨columns, rest, _, run, bounded⟩ := Step.yields_andThen.1 goesOn
    obtain ⟨high, same, rfl⟩ := Bounds.yields_bounded.1 bounded
    exact ⟨items, behind, columns, lighter, inner, low, run, high, same⟩
  · rintro ⟨items, behind, columns, lighter, inner, low, run, high, same⟩
    refine ⟨.vector items, behind, lighter, yields_vectorTail.2 ⟨items, inner, low, rfl⟩, ?_⟩
    exact Step.yields_andThen.2
      ⟨columns, stop, run.choose, run, Bounds.yields_bounded.2 ⟨high, same, rfl⟩⟩

/-- A signed operand is the operand behind its sign, if it is not too high. -/
theorem yields_signTail {sign : Sign} {tokens stop : List Token} {h : weight tokens < bound}
    {e : Expr} :
    (signTail b signed sign tokens h).Yields e stop ↔
      ∃ inner, (signed tokens).Yields inner stop ∧ (Expr.signed sign inner).height ≤ b.maxDepth ∧
        Expr.signed sign inner = e := by
  rw [signTail, Step.yields_andThen]
  constructor
  · rintro ⟨inner, rest, _, read, bounded⟩
    obtain ⟨low, same, rfl⟩ := Bounds.yields_bounded.1 bounded
    exact ⟨inner, Step.yields_weaken.1 read, low, same⟩
  · rintro ⟨inner, read, low, same⟩
    have read : ((signed tokens).weaken (Nat.le_of_lt h)).Yields inner stop :=
      Step.yields_weaken.2 read
    exact ⟨inner, stop, read.choose, read, Bounds.yields_bounded.2 ⟨low, same, rfl⟩⟩

/-- A call: nothing up to the closing parenthesis, or arguments that begin with something else. -/
theorem yields_callTail {name : String} {tokens stop : List Token} {h : weight tokens < bound}
    {e : Expr} :
    (callTail b nested name tokens h).Yields e stop ↔
      (∃ t, tokens = t :: stop ∧ t.kind = .rightParen ∧ call name [] = e) ∨
        (tokens.head?.map Token.kind ≠ some .rightParen ∧
          ∃ args, (arguments b nested name tokens h).Yields args stop ∧
            (call name args).height ≤ b.maxDepth ∧ call name args = e) := by
  have general : ((arguments b nested name tokens h).andThen fun args rest lighter =>
      b.bounded (.call name args) rest lighter).Yields e stop ↔
      ∃ args, (arguments b nested name tokens h).Yields args stop ∧
        (call name args).height ≤ b.maxDepth ∧ call name args = e := by
    rw [Step.yields_andThen]
    constructor
    · rintro ⟨args, rest, _, read, bounded⟩
      obtain ⟨low, same, rfl⟩ := Bounds.yields_bounded.1 bounded
      exact ⟨args, read, low, same⟩
    · rintro ⟨args, read, low, same⟩
      exact ⟨args, stop, read.choose, read, Bounds.yields_bounded.2 ⟨low, same, rfl⟩⟩
  unfold callTail
  split
  · rw [general]
    simp
  · next _ t rest _ =>
    split
    · next close =>
      rw [Step.yields_done, and_comm]
      constructor
      · rintro ⟨rfl, same⟩
        exact .inl ⟨t, rfl, close, same⟩
      · rintro (⟨_, eq, _, same⟩ | ⟨opens, _⟩)
        · exact ⟨(List.cons.inj eq).2, same⟩
        · exact absurd (congrArg some close) opens
    · next other =>
      rw [general]
      simp [other]

/-- Parameters: a name, and more of them behind a comma. -/
theorem yields_parameters {tokens stop : List Token} {h : weight tokens < bound}
    {params : List String} :
    (parameters b tokens h).Yields params stop ↔
      ∃ t rest name, tokens = t :: rest ∧ t.kind = .name name ∧
        ((rest.head?.map Token.kind ≠ some .comma ∧ params = [name] ∧ rest = stop) ∨
          ∃ u after more, ∃ lighter : weight after < bound,
            rest = u :: after ∧ u.kind = .comma ∧ params = name :: more ∧
              (parameters b after lighter).Yields more stop) := by
  cases tokens with
  | nil => simp [parameters]
  | cons t rest =>
    rw [parameters]
    constructor
    · intro yielded
      split at yielded
      · next name named =>
        refine ⟨t, rest, name, rfl, named, ?_⟩
        cases rest with
        | nil =>
          obtain ⟨rfl, rfl⟩ := Step.yields_done.1 yielded
          exact .inl ⟨nofun, rfl, rfl⟩
        | cons u after =>
          simp only at yielded
          split at yielded
          · next comma =>
            obtain ⟨more, tail, rfl⟩ := Step.yields_map.1 yielded
            exact .inr ⟨u, after, more, _, rfl, comma, rfl, tail⟩
          · next other =>
            obtain ⟨rfl, rfl⟩ := Step.yields_done.1 yielded
            exact .inl ⟨fun comma => other (Option.some.inj comma), rfl, rfl⟩
      · exact absurd yielded Bounds.not_yields_complain
    · rintro ⟨u, us, name, eq, named, cases⟩
      obtain ⟨rfl, rfl⟩ := List.cons.inj eq
      simp only [named]
      rcases cases with ⟨ended, rfl, rfl⟩ | ⟨u, after, more, _, rfl, comma, rfl, tail⟩
      · cases rest with
        | nil => exact Step.yields_done.2 ⟨rfl, rfl⟩
        | cons u after =>
          have other : ¬u.kind = .comma := fun comma => ended (congrArg some comma)
          simp only [other, if_false]
          exact Step.yields_done.2 ⟨rfl, rfl⟩
      · simp only [comma, if_true]
        exact Step.yields_map.2 ⟨more, tail, rfl⟩

/-- A parameter list: nothing or parameters, and the closing parenthesis. -/
theorem yields_parameterList {tokens stop : List Token} {h : weight tokens < bound}
    {params : List String} :
    (parameterList b tokens h).Yields params stop ↔
      ∃ t, t.kind = .rightParen ∧
        ((params = [] ∧ tokens = t :: stop) ∨
          (tokens.head?.map Token.kind ≠ some .rightParen ∧
            (parameters b tokens h).Yields params (t :: stop))) := by
  have closed : ∀ step : Step (List String) bound,
      (step.andThen fun params rest lighter =>
        (b.expect .rightParen .unclosedParameters rest lighter).andThen fun _ behind lighter =>
          .done params behind lighter).Yields params stop ↔
        ∃ t, t.kind = .rightParen ∧ step.Yields params (t :: stop) := by
    intro step
    rw [Step.yields_andThen]
    constructor
    · rintro ⟨names, rest, _, read, goesOn⟩
      obtain ⟨_, behind, _, close, ended⟩ := Step.yields_andThen.1 goesOn
      obtain ⟨t, rfl, isClose⟩ := Bounds.yields_expect.1 close
      obtain ⟨rfl, rfl⟩ := Step.yields_done.1 ended
      exact ⟨t, isClose, read⟩
    · rintro ⟨t, isClose, read⟩
      have lighter := read.choose
      refine ⟨params, t :: stop, lighter, read, Step.yields_andThen.2 ?_⟩
      exact ⟨(), stop, Nat.lt_trans (weight_lt_cons t stop) lighter,
        Bounds.yields_expect.2 ⟨t, rfl, isClose⟩, Step.yields_done.2 ⟨rfl, rfl⟩⟩
  unfold parameterList
  rw [closed]
  cases tokens with
  | nil => simp [next, finishAt]
  | cons u rest =>
    by_cases close : u.kind = .rightParen
    · simp only [next, close, if_true, Step.yields_done]
      constructor
      · rintro ⟨t, isClose, rfl, same⟩
        exact ⟨t, isClose, .inl ⟨rfl, same⟩⟩
      · rintro ⟨t, isClose, ⟨rfl, same⟩ | ⟨open', _⟩⟩
        · exact ⟨t, isClose, rfl, same⟩
        · exact absurd (congrArg some close) open'
    · simp only [next, close, if_false]
      constructor
      · rintro ⟨t, isClose, read⟩
        exact ⟨t, isClose, .inr ⟨fun same => close (Option.some.inj same), read⟩⟩
      · rintro ⟨t, isClose, ⟨_, same⟩ | ⟨_, read⟩⟩
        · obtain ⟨rfl, _⟩ := List.cons.inj same
          exact absurd isClose close
        · exact ⟨t, isClose, read⟩

/-- A definition: its parameter list, the equals sign and the body. -/
theorem yields_definitionTail {name : String} {tokens stop : List Token}
    {h : weight tokens < bound} {e : Expr} :
    (definitionTail b nested name tokens h).Yields e stop ↔
      ∃ params t behind body, (parameterList b tokens h).Yields params (t :: behind) ∧
        t.kind = .operator .assign ∧ (nested behind).Yields body stop ∧
          (definition name params body).height ≤ b.maxDepth ∧
            definition name params body = e := by
  rw [definitionTail, Step.yields_andThen]
  constructor
  · rintro ⟨params, rest, _, read, goesOn⟩
    obtain ⟨_, behind, _, equals, inner⟩ := Step.yields_andThen.1 goesOn
    obtain ⟨t, rfl, isEquals⟩ := Bounds.yields_expect.1 equals
    obtain ⟨body, rest, _, bodyRead, bounded⟩ := Step.yields_andThen.1 inner
    obtain ⟨low, same, rfl⟩ := Bounds.yields_bounded.1 bounded
    exact ⟨params, t, behind, body, read, isEquals, Step.yields_weaken.1 bodyRead, low, same⟩
  · rintro ⟨params, t, behind, body, read, isEquals, bodyRead, low, same⟩
    have lighter := read.choose
    have lighterStill : weight behind < bound := Nat.lt_trans (weight_lt_cons t behind) lighter
    have bodyRead : ((nested behind).weaken (Nat.le_of_lt lighterStill)).Yields body stop :=
      Step.yields_weaken.2 bodyRead
    refine ⟨params, t :: behind, lighter, read, Step.yields_andThen.2 ?_⟩
    refine ⟨(), behind, lighterStill, Bounds.yields_expect.2 ⟨t, rfl, isEquals⟩, ?_⟩
    exact Step.yields_andThen.2
      ⟨body, stop, bodyRead.choose, bodyRead, Bounds.yields_bounded.2 ⟨low, same, rfl⟩⟩

/-- A name without a parenthesis behind it is a variable. -/
theorem yields_nameTail_end {name : String} {tokens stop : List Token} {h : weight tokens < bound}
    {e : Expr} (ended : tokens.head?.map Token.kind ≠ some .leftParen) :
    (nameTail b nested name tokens h).Yields e stop ↔ plain name = e ∧ tokens = stop := by
  cases tokens with
  | nil => exact Step.yields_done
  | cons t rest =>
    have other : ¬t.kind = .leftParen := fun opens => ended (congrArg some opens)
    rw [nameTail, if_neg other]
    exact Step.yields_done

/-- With a parenthesis behind it, a name begins a definition or a call. -/
theorem yields_nameTail_paren {name : String} {t : Token} {rest stop : List Token}
    {h : weight (t :: rest) < bound} {e : Expr} (opens : t.kind = .leftParen) :
    (nameTail b nested name (t :: rest) h).Yields e stop ↔
      ∃ lighter : weight rest < bound,
        if beginsDefinition rest then (definitionTail b nested name rest lighter).Yields e stop
        else (callTail b nested name rest lighter).Yields e stop := by
  have lighter : weight rest < bound := Nat.lt_trans (weight_lt_cons t rest) h
  rw [nameTail, if_pos opens]
  constructor
  · intro yielded
    refine ⟨lighter, ?_⟩
    split <;> simp_all
  · rintro ⟨_, yielded⟩
    split <;> simp_all

/-- No operand is read from no tokens. -/
theorem not_yields_operandWith_nil {stop : List Token} {e : Expr} :
    ¬(operandWith b signed nested []).Yields e stop :=
  Bounds.not_yields_complain

/-- The operands by their first token. -/
theorem yields_operandWith {t : Token} {rest stop : List Token} {e : Expr} :
    (operandWith b signed nested (t :: rest)).Yields e stop ↔
      match t.kind with
      | .operator .subtract =>
        (signTail b signed .negative rest (weight_lt_cons t rest)).Yields e stop
      | .operator .add =>
        (signTail b signed .positive rest (weight_lt_cons t rest)).Yields e stop
      | .number value => number value = e ∧ withImpliedTimes rest = stop
      | .name name => (nameTail b nested name rest (weight_lt_cons t rest)).Yields e stop
      | .leftParen =>
        ∃ close : Token, close.kind = .rightParen ∧ (nested rest).Yields e (close :: stop)
      | .leftBracket => (matrixTail b nested rest (weight_lt_cons t rest)).Yields e stop
      | _ => False := by
  have lighter : weight rest < weight (t :: rest) := weight_lt_cons t rest
  have inParens : (((nested rest).weaken (Nat.le_of_lt lighter)).andThen fun inner behind lighter =>
      (b.expect .rightParen .unclosedParenthesis behind lighter).map fun _ => inner).Yields e stop ↔
        ∃ close : Token, close.kind = .rightParen ∧ (nested rest).Yields e (close :: stop) := by
    rw [Step.yields_andThen]
    constructor
    · rintro ⟨inner, behind, _, read, ended⟩
      obtain ⟨_, taken, rfl⟩ := Step.yields_map.1 ended
      obtain ⟨close, rfl, isClose⟩ := Bounds.yields_expect.1 taken
      exact ⟨close, isClose, Step.yields_weaken.1 read⟩
    · rintro ⟨close, isClose, read⟩
      have read := (Step.yields_weaken (h := Nat.le_of_lt lighter)).2 read
      exact ⟨e, close :: stop, read.choose, read,
        Step.yields_map.2 ⟨(), Bounds.yields_expect.2 ⟨close, rfl, isClose⟩, rfl⟩⟩
  unfold operandWith
  simp only
  split
  · next same => simp only [same]
  · next same => simp only [same]
  · next same => simp only [same, Step.yields_done]
  · next same => simp only [same]
  · next same => simp only [same, inParens]
  · next same => simp only [same]
  · next other =>
    split <;> simp_all

/-- The parser behind a sign, which goes one level deeper. -/
def belowSign (b : Bounds) : Nat → Parser Expr
  | 0 => fun tokens => b.tooDeep tokens
  | room + 1 => Expr.operand b room

/-- An operand may have an operand behind its sign and an expression in brackets, both nested one
level deeper. -/
theorem operand_eq (room : Nat) :
    Expr.operand b room = operandWith b (belowSign b room) (expression b room) := by
  cases room <;> rfl

end Reckon.Expr
