import Reckon.Proofs.Syntax.Procedures

/-!
# The limit on nesting

The limit only cuts off. Under a greater limit every parser takes the same steps and meets the same
faults, up to the point where the smaller limit stopped it. The statement is made once for each way
of combining parsers and then for the procedures one after the other.
-/

namespace Reckon.Expr

open Token

namespace Step

variable {α β : Type} {bound larger : Nat}

/-- The step is stopped by the limit on nesting. -/
def AtLimit (step : Step α bound) : Prop :=
  ∃ limit rest, step = .stuck (.depthExceeded limit) rest

/-- A step that has read something is not stopped. -/
theorem not_atLimit_done {value : α} {rest : List Token} {lighter : weight rest < bound} :
    ¬(done value rest lighter).AtLimit := by
  intro ⟨_, _, h⟩
  cases h

/-- A function on what was read does not change whether the limit stopped it. -/
theorem atLimit_map {step : Step α bound} {f : α → β} :
    (step.map f).AtLimit ↔ step.AtLimit := by
  cases step <;> simp [AtLimit, map]

/-- A looser bound on the rest does not change whether the limit stopped the step. -/
theorem atLimit_weaken {step : Step α bound} {h : bound ≤ larger} :
    (step.weaken h).AtLimit ↔ step.AtLimit := by
  cases step <;> simp [AtLimit, weaken]

/-- Of two steps in a row, the first or the second is stopped. -/
theorem atLimit_andThen {step : Step α bound}
    {next : (value : α) → (rest : List Token) → weight rest < bound → Step β bound} :
    (step.andThen next).AtLimit ↔
      step.AtLimit ∨ ∃ value rest lighter, step.Yields value rest ∧
        (next value rest lighter).AtLimit := by
  cases step with
  | stuck fault rest => simp [AtLimit, andThen]
  | done value rest lighter =>
    constructor
    · intro h
      exact .inr ⟨value, rest, lighter, ⟨lighter, rfl⟩, h⟩
    · rintro (h | ⟨_, _, _, ⟨_, same⟩, h⟩)
      · exact absurd h not_atLimit_done
      · cases same
        exact h

/-- The first of two steps goes as the second, unless the limit stops it. -/
def CutOff (small large : Step α bound) : Prop :=
  small.AtLimit ∨ small = large

/-- A step is a cut-off form of itself. -/
theorem CutOff.refl (step : Step α bound) : step.CutOff step :=
  .inr rfl

/-- A function on what was read keeps one step a cut-off form of the other. -/
theorem CutOff.map {small large : Step α bound} (h : small.CutOff large) (f : α → β) :
    (small.map f).CutOff (large.map f) := by
  rcases h with stopped | same
  · exact .inl (atLimit_map.2 stopped)
  · exact .inr (congrArg (Step.map f) same)

/-- A looser bound on the rest keeps one step a cut-off form of the other. -/
theorem CutOff.weaken {small large : Step α bound} (h : small.CutOff large) (le : bound ≤ larger) :
    (small.weaken le).CutOff (large.weaken le) := by
  rcases h with stopped | same
  · exact .inl (atLimit_weaken.2 stopped)
  · exact .inr (congrArg (Step.weaken le) same)

/-- Steps one after the other are cut off where the first or the next one is. -/
theorem CutOff.andThen {small large : Step α bound}
    {next next' : (value : α) → (rest : List Token) → weight rest < bound → Step β bound}
    (h : small.CutOff large)
    (goesOn : ∀ value rest lighter, small.Yields value rest →
      (next value rest lighter).CutOff (next' value rest lighter)) :
    (small.andThen next).CutOff (large.andThen next') := by
  rcases h with stopped | same
  · exact .inl (atLimit_andThen.2 (.inl stopped))
  · rw [← same]
    cases small with
    | done value rest lighter => exact goesOn value rest lighter ⟨lighter, rfl⟩
    | stuck fault rest => exact .refl _

end Step

/-- Bounds for the same text, of which the second allow at least as much. -/
structure Bounds.Within (b b' : Bounds) : Prop where
  /-- The end token stands at the same position. -/
  finish : b.finish = b'.finish
  /-- The limit is not smaller. -/
  maxDepth : b.maxDepth ≤ b'.maxDepth

/-- A parser goes as another one, unless the limit stops it. -/
def CutOff {α : Type} (small large : Parser α) : Prop :=
  ∀ tokens, (small tokens).CutOff (large tokens)

namespace Bounds.Within

variable {b b' : Bounds} {α : Type} {bound : Nat}

/-- Complaints about tokens do not depend on the limit. -/
theorem complain (within : b.Within b') (problem : String → ParseProblem) (tokens : List Token) :
    (b.complain problem tokens : Step α bound) = b'.complain problem tokens := by
  rw [Bounds.complain, Bounds.complain, within.finish]

/-- Which token is expected does not depend on the limit. -/
theorem expect (within : b.Within b') (kind : Token.Kind) (problem : String → ParseProblem)
    (tokens : List Token) (h : weight tokens < bound) :
    b.expect kind problem tokens h = b'.expect kind problem tokens h := by
  cases tokens with
  | nil => exact within.complain problem []
  | cons t rest =>
    rw [Bounds.expect, Bounds.expect, within.complain]

/-- The limit stops the parser or lets it go on as if it were not there. -/
theorem bounded (within : b.Within b') (e : Expr) (rest : List Token) (h : weight rest < bound) :
    (b.bounded e rest h).CutOff (b'.bounded e rest h) := by
  unfold Bounds.bounded
  by_cases high : b.maxDepth < e.height
  · rw [if_pos high]
    exact .inl ⟨b.maxDepth, rest, rfl⟩
  · have low : ¬b'.maxDepth < e.height := by
      have le := within.maxDepth
      omega
    rw [if_neg high, if_neg low]
    exact .refl _

end Bounds.Within

/-- A parser without a level left is a cut-off form of every parser. -/
theorem cutOff_tooDeep (b : Bounds) {α : Type} (large : Parser α) :
    CutOff (fun tokens => b.tooDeep tokens) large :=
  fun tokens => .inl ⟨b.maxDepth, tokens, rfl⟩

section Procedures

variable {b b' : Bounds} {operand operand' signed signed' nested nested' : Parser Expr}
  {bound : Nat}

/-- A chain of operators is cut off only where its operands are. -/
theorem cutOff_chain (within : b.Within b') (below : CutOff operand operand') (level : Nat)
    (left : Expr) (tokens : List Token) (h : weight tokens < bound) :
    (chain b operand level left tokens h).CutOff (chain b' operand' level left tokens h) := by
  induction size : weight tokens using Nat.strongRecOn generalizing left tokens with
  | ind size' ih =>
    by_cases ahead : operatorAhead level tokens = true
    · obtain ⟨t, rest, op, rfl, isOp, same⟩ := exists_of_operatorAhead ahead
      rw [chain_operator isOp same, chain_operator isOp same]
      refine ((below rest).weaken _).andThen fun right behind _ read => ?_
      refine (within.bounded _ behind _).andThen fun joined stop _ bounded => ?_
      obtain ⟨_, _, rfl⟩ := Bounds.yields_bounded.1 bounded
      have smaller : weight behind < size' := by
        have taken := weight_lt_cons t rest
        have := (Step.yields_weaken.1 read).choose
        omega
      exact ih _ smaller joined behind _ rfl
    · have ended : operatorAhead level tokens = false := eq_false_of_ne_true ahead
      rw [chain_end ended, chain_end ended]
      exact .refl _

/-- One level of operators is cut off only where its operands are. -/
theorem cutOff_binaryLevel (within : b.Within b') (below : CutOff operand operand')
    (level : Nat) : CutOff (binaryLevel b operand level) (binaryLevel b' operand' level) :=
  fun tokens => (below tokens).andThen fun left rest lighter _ =>
    cutOff_chain within below level left rest lighter

/-- All levels of operators together are cut off only where the operands are. -/
theorem cutOff_levels (within : b.Within b') (below : CutOff operand operand') :
    CutOff (levels b operand) (levels b' operand') := by
  have powers := cutOff_binaryLevel within below 4
  have products := cutOff_binaryLevel within powers 3
  have sums := cutOff_binaryLevel within products 2
  exact cutOff_binaryLevel within sums 1

/-- Arguments are cut off only where the nested expressions are. -/
theorem cutOff_arguments (within : b.Within b') (inner : CutOff nested nested') (name : String)
    (tokens : List Token) (h : weight tokens < bound) :
    (arguments b nested name tokens h).CutOff (arguments b' nested' name tokens h) := by
  induction size : weight tokens using Nat.strongRecOn generalizing tokens with
  | ind size' ih =>
    rw [arguments_eq, arguments_eq]
    refine ((inner tokens).weaken _).andThen fun arg rest _ read => ?_
    cases rest with
    | nil => exact .inr (within.complain _ _)
    | cons t behind =>
      have smaller : weight behind < size' := by
        have taken := weight_lt_cons t behind
        have := (Step.yields_weaken.1 read).choose
        omega
      by_cases comma : t.kind = .comma
      · simp only [if_pos comma]
        exact (ih _ smaller behind _ rfl).map _
      · simp only [if_neg comma]
        by_cases close : t.kind = .rightParen
        · rw [if_pos close, if_pos close]
          exact .refl _
        · rw [if_neg close, if_neg close]
          exact .inr (within.complain _ _)

/-- The elements of a vector are cut off only where the nested expressions are. -/
theorem cutOff_elements (within : b.Within b') (inner : CutOff nested nested')
    (tokens : List Token) (h : weight tokens < bound) :
    (elements b nested tokens h).CutOff (elements b' nested' tokens h) := by
  induction size : weight tokens using Nat.strongRecOn generalizing tokens with
  | ind size' ih =>
    cases tokens with
    | nil =>
      rw [elements, elements, within.finish]
      exact .refl _
    | cons t rest =>
      by_cases close : t.kind = .rightBracket
      · rw [elements, elements, if_pos close, if_pos close]
        exact .refl _
      · rw [elements_cons close, elements_cons close]
        refine ((inner _).weaken _).andThen fun item behind _ read => ?_
        have smaller : weight (skipComma behind) < size' := by
          have skipped := weight_skipComma_le behind
          have := (Step.yields_weaken.1 read).choose
          omega
        exact (ih _ smaller _ _ rfl).map _

/-- A vector is cut off where its elements are, or for its own height. -/
theorem cutOff_vectorTail (within : b.Within b') (inner : CutOff nested nested')
    (tokens : List Token) (h : weight tokens < bound) :
    (vectorTail b nested tokens h).CutOff (vectorTail b' nested' tokens h) :=
  (cutOff_elements within inner tokens h).andThen fun _ rest lighter _ =>
    within.bounded _ rest lighter

/-- A run of columns is cut off only where one of its columns is. -/
theorem cutOff_columnRun (within : b.Within b') (inner : CutOff nested nested')
    (tokens : List Token) (h : weight tokens < bound) :
    (columnRun b nested tokens h).CutOff (columnRun b' nested' tokens h) := by
  induction size : weight tokens using Nat.strongRecOn generalizing tokens with
  | ind size' ih =>
    by_cases opens : tokens.head?.map Token.kind = some .leftBracket
    · obtain ⟨t, rest, rfl, bracket⟩ := exists_of_head? opens
      rw [columnRun_bracket bracket, columnRun_bracket bracket]
      refine ((cutOff_vectorTail within inner rest _).weaken _).andThen
        fun column behind _ read => ?_
      have smaller : weight behind < size' := by
        have taken := (Step.yields_weaken.1 read).choose
        omega
      exact (ih _ smaller behind _ rfl).map _
    · rw [columnRun_end opens, columnRun_end opens]
      exact .refl _

/-- A matrix is cut off where one of its columns is, or for its own height. -/
theorem cutOff_matrixTail (within : b.Within b') (inner : CutOff nested nested')
    (tokens : List Token) (h : weight tokens < bound) :
    (matrixTail b nested tokens h).CutOff (matrixTail b' nested' tokens h) := by
  refine (cutOff_vectorTail within inner tokens h).andThen fun column rest lighter _ => ?_
  refine (cutOff_columnRun within inner rest lighter).andThen fun columns behind less _ => ?_
  exact within.bounded _ behind less

/-- A signed operand is cut off where its operand is, or for its own height. -/
theorem cutOff_signTail (within : b.Within b') (below : CutOff signed signed') (sign : Sign)
    (tokens : List Token) (h : weight tokens < bound) :
    (signTail b signed sign tokens h).CutOff (signTail b' signed' sign tokens h) :=
  ((below tokens).weaken _).andThen fun _ rest lighter _ => within.bounded _ rest lighter

/-- A call is cut off only where its arguments are. -/
theorem cutOff_callTail (within : b.Within b') (inner : CutOff nested nested') (name : String)
    (tokens : List Token) (h : weight tokens < bound) :
    (callTail b nested name tokens h).CutOff (callTail b' nested' name tokens h) := by
  have general : ((arguments b nested name tokens h).andThen fun args rest lighter =>
        b.bounded (.call name args) rest lighter).CutOff
      ((arguments b' nested' name tokens h).andThen fun args rest lighter =>
        b'.bounded (.call name args) rest lighter) :=
    (cutOff_arguments within inner name tokens h).andThen fun _ rest lighter _ =>
      within.bounded _ rest lighter
  cases tokens with
  | nil => exact general
  | cons t rest =>
    by_cases close : t.kind = .rightParen
    · rw [callTail, callTail, if_pos close, if_pos close]
      exact .refl _
    · rw [callTail, callTail, if_neg close, if_neg close]
      exact general

/-- Names and commas do not nest. -/
theorem parameters_eq_parameters (within : b.Within b') (tokens : List Token)
    (h : weight tokens < bound) : parameters b tokens h = parameters b' tokens h := by
  induction size : weight tokens using Nat.strongRecOn generalizing tokens with
  | ind size' ih =>
    cases tokens with
    | nil => rw [parameters, parameters, within.complain]
    | cons t rest =>
      rw [parameters, parameters, within.complain]
      cases rest with
      | nil => rfl
      | cons u after =>
        have smaller : weight after < size' := by
          have takenName := weight_lt_cons t (u :: after)
          have takenComma := weight_lt_cons u after
          omega
        simp only [ih _ smaller after _ rfl]

/-- The parameters of a definition do not depend on the limit. -/
theorem parameterList_eq_parameterList (within : b.Within b') (tokens : List Token)
    (h : weight tokens < bound) : parameterList b tokens h = parameterList b' tokens h := by
  simp only [parameterList, parameters_eq_parameters within, within.expect, within.finish]

/-- A definition is cut off only where its body is. -/
theorem cutOff_definitionTail (within : b.Within b') (inner : CutOff nested nested')
    (name : String) (tokens : List Token) (h : weight tokens < bound) :
    (definitionTail b nested name tokens h).CutOff (definitionTail b' nested' name tokens h) := by
  rw [definitionTail, definitionTail, parameterList_eq_parameterList within]
  refine (Step.CutOff.refl _).andThen fun params rest lighter _ => ?_
  rw [within.expect]
  refine (Step.CutOff.refl _).andThen fun _ behind lighter _ => ?_
  refine ((inner behind).weaken _).andThen fun body rest lighter _ => ?_
  exact within.bounded _ rest lighter

/-- What a name begins is cut off only where a nested expression is. -/
theorem cutOff_nameTail (within : b.Within b') (inner : CutOff nested nested') (name : String)
    (tokens : List Token) (h : weight tokens < bound) :
    (nameTail b nested name tokens h).CutOff (nameTail b' nested' name tokens h) := by
  cases tokens with
  | nil => exact .refl _
  | cons t rest =>
    rw [nameTail, nameTail]
    by_cases opens : t.kind = .leftParen
    · rw [if_pos opens, if_pos opens]
      by_cases begins : beginsDefinition rest = true
      · rw [if_pos begins, if_pos begins]
        exact cutOff_definitionTail within inner name rest _
      · rw [if_neg begins, if_neg begins]
        exact cutOff_callTail within inner name rest _
    · rw [if_neg opens, if_neg opens]
      exact .refl _

/-- An operand is cut off only where its parts are. -/
theorem cutOff_operandWith (within : b.Within b') (below : CutOff signed signed')
    (inner : CutOff nested nested') :
    CutOff (operandWith b signed nested) (operandWith b' signed' nested') := by
  intro tokens
  cases tokens with
  | nil => exact .inr (within.complain _ _)
  | cons t rest =>
    unfold operandWith
    simp only
    split
    · exact cutOff_signTail within below .negative rest _
    · exact cutOff_signTail within below .positive rest _
    · exact .refl _
    · exact cutOff_nameTail within inner _ rest _
    · refine ((inner rest).weaken _).andThen fun e behind lighter _ => ?_
      rw [within.expect]
      exact .refl _
    · exact cutOff_matrixTail within inner rest _
    · exact .inr (within.complain _ _)

/-- With more room and under a greater limit, operands are read in the same way. -/
theorem cutOff_operand (within : b.Within b') {room room' : Nat} (le : room ≤ room') :
    CutOff (Expr.operand b room) (Expr.operand b' room') := by
  induction room generalizing room' with
  | zero =>
    rw [operand_eq room']
    exact cutOff_operandWith within (cutOff_tooDeep b _) (cutOff_tooDeep b _)
  | succ room ih =>
    obtain ⟨more, rfl⟩ : ∃ more, room' = more + 1 := ⟨room' - 1, by omega⟩
    have below := ih (Nat.le_of_succ_le_succ le)
    exact cutOff_operandWith within below (cutOff_levels within below)

/-- A smaller limit and less room only cut the parsing of an expression off. -/
theorem cutOff_expression (within : b.Within b') {room room' : Nat} (le : room ≤ room') :
    CutOff (expression b room) (expression b' room') := by
  cases room with
  | zero => exact cutOff_tooDeep b _
  | succ room =>
    obtain ⟨more, rfl⟩ : ∃ more, room' = more + 1 := ⟨room' - 1, by omega⟩
    exact cutOff_levels within (cutOff_operand within (Nat.le_of_succ_le_succ le))

end Procedures

/-- A text that is read, or refused for another reason than the limit on nesting, is read or refused
in the same way under a greater limit. -/
theorem ofTokens_eq_of_le {maxDepth maxDepth' : Nat} (le : maxDepth ≤ maxDepth')
    {tokens : List Token}
    (unreached : ∀ limit, ofTokens maxDepth tokens ≠ .error (.depthExceeded limit)) :
    ofTokens maxDepth' tokens = ofTokens maxDepth tokens := by
  have within : Bounds.Within ⟨maxDepth, finishOf tokens⟩ ⟨maxDepth', finishOf tokens⟩ :=
    ⟨rfl, le⟩
  rcases cutOff_expression within le (tokens.takeWhile fun t => !t.isFinish) with stopped | same
  · obtain ⟨limit, rest, stopped⟩ := stopped
    refine absurd ?_ (unreached limit)
    simp only [ofTokens, Cursor.ofTokens, Cursor.expression, stopped, Step.outcome]
  · simp only [ofTokens, Cursor.ofTokens, Cursor.expression, same]

end Reckon.Expr
