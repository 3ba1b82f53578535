import Reckon.Proofs.Syntax.StoredSteps

/-!
# The procedures over stored tokens

Each procedure over stored tokens follows the one over the stream, provided that the procedures
below it do. A loop comes to its end because what it goes on with is lighter. The levels of nesting
close the recursion: it is by induction on how many of them are still allowed.

Between two tokens that are taken at most twelve calls nest: from the arguments of a call or the
elements of a vector through an expression, its four levels of operators, a sign, a primary and a
matrix down to the bracket of a vector. Twelve times the weight of the stream is therefore enough
fuel, with the place of the procedure in this order added to it.
-/

namespace Reckon

open Token
open Reckon.Expr (Bounds Parser Step operatorAhead belowSign)

namespace Procedure

variable {b : Bounds} {depth bound fuel : Nat} {nested signed operand : Parser Expr} {t : Token}
  {rest : List Token}

/-! ## Levels of operators -/

/-- A chain goes on behind an operator of its level and ends in front of anything else. -/
theorem follows_chain {n : Nat} (below : Reads (level · (n + 1)) b depth (10 - n) operand)
    (left : Expr) (tokens : List Token) (h : weight tokens < bound)
    (enough : 12 * weight tokens + 1 ≤ fuel) :
    (chain fuel n left left.height).Follows b depth tokens
      (Expr.chain b operand n left tokens h) := by
  induction size : weight tokens using Nat.strongRecOn generalizing left tokens fuel with
  | ind size' ih =>
    obtain ⟨fuel, rfl⟩ := Nat.exists_eq_add_of_le' (show 1 ≤ fuel by omega)
    rw [chain]
    by_cases ahead : operatorAhead n tokens = true
    · obtain ⟨t, rest, op, rfl, isOp, same⟩ := Expr.exists_of_operatorAhead ahead
      have taken := weight_lt_cons t rest
      rw [Expr.chain_operator isOp same]
      refine follows_operator?_some isOp (by simpa using same) ?_
      refine ((below rest fuel (by omega)).weaken _).andThen fun right behind lighter _ le => ?_
      have joined : max left.height right.height + 1 = (Expr.binary op left right).height := rfl
      refine follows_checkHeight joined lighter ?_
      rw [joined]
      exact ih (weight behind) (by omega) _ behind _ (by omega) rfl
    · have ended : operatorAhead n tokens = false := eq_false_of_ne_true ahead
      rw [Expr.chain_end ended]
      refine follows_operator?_none (fun t op first isOp => ?_) .done
      obtain ⟨rest, rfl⟩ := List.head?_eq_some_iff.1 first
      rw [operatorAhead, isOp] at ended
      exact ended

/-- A level of operators over stored tokens reads what the parser of the level reads. -/
theorem reads_level {n : Nat} (le : n ≤ 4)
    (below : Reads (level · (n + 1)) b depth (10 - n) operand) :
    Reads (level · n) b depth (11 - n) (Expr.binaryLevel b operand n) := by
  intro tokens fuel enough
  obtain ⟨fuel, rfl⟩ := Nat.exists_eq_add_of_le' (show 1 ≤ fuel by omega)
  simp only
  rw [level, if_pos le]
  refine (below tokens fuel (by omega)).andThen fun left rest lighter _ _ => ?_
  exact follows_chain below left rest lighter (by omega)

/-- All levels of operators over the operands. -/
theorem reads_levels (below : Reads unary b depth 5 operand) :
    Reads (level · 1) b depth 10 (Expr.levels b operand) := by
  have lowest : Reads (level · 5) b depth 6 operand := by
    intro tokens fuel enough
    obtain ⟨fuel, rfl⟩ := Nat.exists_eq_add_of_le' (show 1 ≤ fuel by omega)
    simp only
    rw [level, if_neg (by decide)]
    exact below tokens fuel (by omega)
  have powers := reads_level (by decide : 4 ≤ 4) lowest
  have products := reads_level (by decide : 3 ≤ 4) powers
  have sums := reads_level (by decide : 2 ≤ 4) products
  exact reads_level (by decide : 1 ≤ 4) sums

/-! ## Names and arguments -/

/-- The reading of parameters follows the parser's. -/
theorem follows_parameters (tokens : List Token) (h : weight tokens < bound)
    (enough : weight tokens + 1 ≤ fuel) :
    (parameters fuel).Follows b depth tokens (Expr.parameters b tokens h) := by
  induction size : weight tokens using Nat.strongRecOn generalizing tokens fuel with
  | ind size' ih =>
    obtain ⟨fuel, rfl⟩ := Nat.exists_eq_add_of_le' (show 1 ≤ fuel by omega)
    rw [parameters]
    refine follows_peek fun t shows => ?_
    split
    · next name isName =>
      obtain ⟨rest, rfl⟩ := shows.exists_cons (by simp [isName])
      rw [Expr.parameters]
      simp only [isName]
      refine follows_advance (follows_peek fun u shows => ?_)
      cases shows with
      | finish isFinish _ =>
        rw [if_neg (by rw [isFinish]; decide)]
        exact .done
      | @token _ after =>
        simp only
        split
        · have takenName := weight_lt_cons t (u :: after)
          have takenComma := weight_lt_cons u after
          exact follows_advance ((ih (weight after) (by omega) after _ (by omega) rfl).map _)
        · exact .done
    · next noName =>
      have complains : Expr.parameters b tokens h = b.complain .noParameterName tokens := by
        cases shows with
        | finish => rw [Expr.parameters]
        | token =>
          unfold Expr.parameters
          split
          · next name isName => exact absurd isName (noName name)
          · rfl
      rw [complains]
      exact follows_complain _ tokens

/-- The reading of a list of parameters follows the parser's. -/
theorem follows_parameterList (tokens : List Token) (h : weight tokens < bound)
    (enough : weight tokens + 1 ≤ fuel) :
    (parameterList fuel).Follows b depth tokens (Expr.parameterList b tokens h) := by
  have closes (params : List String) (behind : List Token) (lighter : weight behind < bound) :
      (expect .rightParen .unclosedParameters >>= fun _ => pure params).Follows b depth behind
        ((b.expect .rightParen .unclosedParameters behind lighter).andThen fun _ stop less =>
          .done params stop less) :=
    (follows_expect (by decide) _ behind lighter).andThen fun _ _ _ _ _ => .done
  rw [parameterList, Expr.parameterList]
  refine follows_peek fun t shows => ?_
  rw [shows.kind_eq]
  split
  · rw [pure_bind]
    exact closes [] tokens h
  · exact (follows_parameters tokens h enough).andThen fun params behind lighter _ _ =>
      closes params behind lighter

section nested

variable (inner : Reads expression b depth 11 nested)
include inner

/-- The reading of a definition follows the parser's. -/
theorem follows_definition (name : String) (opens : t.kind = .leftParen)
    (lighter : weight rest < bound) (enough : 12 * weight (t :: rest) + 1 ≤ fuel) :
    (definition fuel name).Follows b depth (t :: rest)
      (Expr.definitionTail b nested name rest lighter) := by
  obtain ⟨fuel, rfl⟩ := Nat.exists_eq_add_of_le' (show 1 ≤ fuel by omega)
  have taken := weight_lt_cons t rest
  rw [definition]
  refine follows_takeBracket opens ?_
  refine (follows_parameterList rest lighter (by omega)).andThen fun params behind less _ le => ?_
  refine (follows_expect (by decide) _ behind less).andThen fun _ after less' _ le' => ?_
  refine ((inner after fuel (by omega)).weaken _).andThen fun body stop less'' _ _ => ?_
  exact follows_bounded _ stop less''

/-- The reading of arguments follows the parser's. -/
theorem follows_arguments (name : String) (tokens : List Token) (h : weight tokens < bound)
    (enough : 12 * weight tokens + 12 ≤ fuel) :
    (arguments fuel name).Follows b depth tokens (Expr.arguments b nested name tokens h) := by
  induction size : weight tokens using Nat.strongRecOn generalizing tokens fuel with
  | ind size' ih =>
    obtain ⟨fuel, rfl⟩ := Nat.exists_eq_add_of_le' (show 1 ≤ fuel by omega)
    rw [arguments, Expr.arguments_eq]
    refine ((inner tokens fuel (by omega)).weaken _).andThen fun arg rest lighter _ le => ?_
    refine follows_peek fun t shows => ?_
    cases shows with
    | finish isFinish _ =>
      rw [if_neg (by rw [isFinish]; decide), if_neg (by rw [isFinish]; decide)]
      exact follows_complain _ _
    | @token _ behind =>
      have taken := weight_lt_cons t behind
      simp only
      split
      · exact follows_advance ((ih (weight behind) (by omega) behind _ (by omega) rfl).map _)
      · split
        · exact follows_advance .done
        · exact follows_complain _ _

/-- A call: nothing up to the closing parenthesis, or arguments that begin with something else. -/
theorem follows_call (name : String) (opens : t.kind = .leftParen) (lighter : weight rest < bound)
    (enough : 12 * weight (t :: rest) + 1 ≤ fuel) :
    (call fuel name).Follows b depth (t :: rest) (Expr.callTail b nested name rest lighter) := by
  obtain ⟨fuel, rfl⟩ := Nat.exists_eq_add_of_le' (show 1 ≤ fuel by omega)
  have taken := weight_lt_cons t rest
  rw [call]
  refine follows_takeBracket opens (follows_peek fun u shows => ?_)
  have general : (arguments fuel name >>= fun args => bounded (.call name args)).Follows b depth
      rest ((Expr.arguments b nested name rest lighter).andThen fun args behind less =>
        b.bounded (.call name args) behind less) :=
    (follows_arguments inner name rest lighter (by omega)).andThen fun _ behind less _ _ =>
      follows_bounded _ behind less
  cases shows with
  | finish isFinish _ =>
    rw [if_neg (by rw [isFinish]; decide), Expr.callTail]
    exact general
  | @token _ behind =>
    rw [Expr.callTail]
    split
    · exact follows_advance .done
    · exact general

/-- What follows a name. -/
theorem follows_afterName (name : String) (tokens : List Token) (h : weight tokens < bound)
    (enough : 12 * weight tokens + 2 ≤ fuel) :
    (afterName fuel name).Follows b depth tokens (Expr.nameTail b nested name tokens h) := by
  obtain ⟨fuel, rfl⟩ := Nat.exists_eq_add_of_le' (show 1 ≤ fuel by omega)
  rw [afterName]
  refine follows_peek fun t shows => ?_
  cases shows with
  | finish isFinish _ =>
    rw [if_neg (by rw [isFinish]; decide), Expr.nameTail]
    exact .done
  | @token _ rest =>
    rw [Expr.nameTail]
    split
    · next opens =>
      refine follows_isDefinition opens ?_
      split
      · exact follows_definition inner name opens _ (by omega)
      · exact follows_call inner name opens _ (by omega)
    · exact .done

/-! ## Vectors -/

/-- Elements are taken up to the closing bracket, each with the comma behind it. -/
theorem follows_elements (tokens : List Token) (h : weight tokens < bound)
    (enough : 12 * weight tokens + 12 ≤ fuel) :
    (elements fuel).Follows b depth tokens (Expr.elements b nested tokens h) := by
  induction size : weight tokens using Nat.strongRecOn generalizing tokens fuel with
  | ind size' ih =>
    obtain ⟨fuel, rfl⟩ := Nat.exists_eq_add_of_le' (show 1 ≤ fuel by omega)
    rw [elements]
    refine follows_peek fun t shows => ?_
    cases shows with
    | finish isFinish position =>
      rw [if_neg (by rw [isFinish]; decide), if_pos isFinish, Expr.elements, position]
      exact .stuck
    | @token _ rest kept =>
      by_cases close : t.kind = .rightBracket
      · rw [if_pos close, Expr.elements, if_pos close]
        exact follows_advance .done
      · have other : ¬t.kind = .finish := by simpa [isFinish] using kept
        rw [if_neg close, if_neg other, Expr.elements_cons close]
        refine ((inner (t :: rest) fuel (by omega)).weaken _).andThen
          fun item behind lighter read _ => ?_
        -- Only an element with a result is known to have taken a token.
        have strictly := (Step.yields_weaken.1 read).choose
        have skipped := Expr.weight_skipComma_le behind
        exact follows_skipComma ((ih _ (by omega) _ _ (by omega) rfl).map _)

/-- The reading of a vector follows the parser's. -/
theorem follows_vector (opens : t.kind = .leftBracket) (lighter : weight rest < bound)
    (enough : 12 * weight (t :: rest) + 1 ≤ fuel) :
    (vector fuel).Follows b depth (t :: rest) (Expr.vectorTail b nested rest lighter) := by
  obtain ⟨fuel, rfl⟩ := Nat.exists_eq_add_of_le' (show 1 ≤ fuel by omega)
  have taken := weight_lt_cons t rest
  rw [vector]
  refine follows_takeBracket opens ?_
  exact (follows_elements inner rest lighter (by omega)).andThen fun _ behind less _ _ =>
    follows_bounded _ behind less

/-- Vectors are taken as long as one more begins. -/
theorem follows_columns (tokens : List Token) (h : weight tokens < bound)
    (enough : 12 * weight tokens + 2 ≤ fuel) :
    (columns fuel).Follows b depth tokens (Expr.columnRun b nested tokens h) := by
  induction size : weight tokens using Nat.strongRecOn generalizing tokens fuel with
  | ind size' ih =>
    obtain ⟨fuel, rfl⟩ := Nat.exists_eq_add_of_le' (show 1 ≤ fuel by omega)
    rw [columns]
    refine follows_peek fun t shows => ?_
    by_cases opens : t.kind = .leftBracket
    · obtain ⟨rest, rfl⟩ := shows.exists_cons (by simp [opens])
      rw [if_pos opens, Expr.columnRun_bracket opens]
      refine ((follows_vector inner opens _ (by omega)).weaken _).andThen
        fun column behind lighter read _ => ?_
      have taken := weight_lt_cons t rest
      have strictly := (Step.yields_weaken.1 read).choose
      exact (ih _ (by omega) behind _ (by omega) rfl).map _
    · have ended : tokens.head?.map Token.kind ≠ some .leftBracket := by
        cases shows with
        | token => exact fun same => opens (Option.some.inj same)
        | finish => simp
      rw [if_neg opens, Expr.columnRun_end ended]
      exact .done

/-- A matrix has a first vector. -/
theorem follows_matrix (opens : t.kind = .leftBracket)
    (enough : 12 * weight (t :: rest) + 3 ≤ fuel) :
    (matrix fuel).Follows b depth (t :: rest)
      (Expr.matrixTail b nested rest (weight_lt_cons t rest)) := by
  obtain ⟨fuel, rfl⟩ := Nat.exists_eq_add_of_le' (show 2 ≤ fuel by omega)
  rw [matrix, columns]
  simp only [bind_assoc]
  refine follows_peek_cons ?_
  rw [if_pos opens]
  simp only [bind_assoc, pure_bind]
  refine (follows_vector inner opens _ (by omega)).andThen fun column behind less _ _ => ?_
  refine (follows_columns inner behind less (by omega)).andThen fun columns stop less _ _ => ?_
  exact follows_bounded _ stop less

end nested

/-! ## Operands -/

/-- Behind a sign an operand is read with one more level open. -/
theorem follows_unary_sign {op : Operator} {sign : Sign}
    (below : Reads (fun fuel => within (unary fuel)) b depth 5 signed)
    (isOp : t.kind = .operator op) (accepted : (op == .add || op == .subtract) = true)
    (named : (if op = .subtract then .negative else .positive) = sign)
    (lighter : weight rest < bound) (enough : 12 * weight (t :: rest) + 5 ≤ fuel) :
    (unary fuel).Follows b depth (t :: rest) (Expr.signTail b signed sign rest lighter) := by
  obtain ⟨fuel, rfl⟩ := Nat.exists_eq_add_of_le' (show 1 ≤ fuel by omega)
  have taken := weight_lt_cons t rest
  rw [unary]
  refine follows_operator?_some isOp accepted ?_
  simp only [named]
  exact ((below rest fuel (by omega)).weaken _).andThen fun _ behind less _ _ =>
    follows_bounded _ behind less

/-- Without a sign in front, an operand is a primary. -/
theorem follows_unary_primary {tokens : List Token} {step : Step Expr bound}
    (unsigned : ∀ t op, tokens.head? = some t → t.kind = .operator op →
      (op == .add || op == .subtract) = false)
    (h : (primary fuel).Follows b depth tokens step) :
    (unary (fuel + 1)).Follows b depth tokens step := by
  rw [unary]
  exact follows_operator?_none unsigned h

/-- What begins no primary is complained about. -/
theorem follows_primary_unexpected {tokens : List Token} {k : Kind}
    (isKind : (next b.finish tokens).kind = k) (noNumber : ∀ value, k ≠ .number value)
    (noName : ∀ name, k ≠ .name name) (noParen : k ≠ .leftParen) (noBracket : k ≠ .leftBracket) :
    (primary (fuel + 1)).Follows b depth tokens
      (b.complain .unexpected tokens : Step Expr bound) := by
  rw [primary]
  refine follows_peek fun t shows => ?_
  have shown : t.kind = k := shows.kind_eq.symm.trans isKind
  split
  · next value isNumber => exact absurd (shown.symm.trans isNumber) (noNumber value)
  · next name isName => exact absurd (shown.symm.trans isName) (noName name)
  · next opens => exact absurd (shown.symm.trans opens) noParen
  · next opens => exact absurd (shown.symm.trans opens) noBracket
  · exact follows_complain _ tokens

/-- Every operand is read as over the stream: behind a sign and inside of brackets by what is called
there. -/
theorem reads_unary (below : Reads (fun fuel => within (unary fuel)) b depth 5 signed)
    (inner : Reads expression b depth 11 nested) :
    Reads unary b depth 5 (Expr.operandWith b signed nested) := by
  intro tokens fuel enough
  obtain ⟨fuel, rfl⟩ := Nat.exists_eq_add_of_le' (show 2 ≤ fuel by omega)
  cases tokens with
  | nil =>
    refine follows_unary_primary (by simp) ?_
    have finish : (next b.finish []).kind = .finish := rfl
    exact follows_primary_unexpected finish (by simp) (by simp) (by simp) (by simp)
  | cons t rest =>
    have taken := weight_lt_cons t rest
    have unsigned {k : Kind} (isKind : t.kind = k) (noOp : ∀ op, k ≠ .operator op)
        (u : Token) (op : Operator) (first : (t :: rest).head? = some u)
        (isOp : u.kind = .operator op) : (op == .add || op == .subtract) = false := by
      obtain rfl := Option.some.inj first
      exact absurd (isKind.symm.trans isOp) (noOp op)
    unfold Expr.operandWith
    simp only
    split
    · next isMinus => exact follows_unary_sign below isMinus rfl rfl _ enough
    · next isPlus => exact follows_unary_sign below isPlus rfl rfl _ enough
    · next value isNumber =>
      refine follows_unary_primary (unsigned isNumber (by simp)) ?_
      rw [primary]
      refine follows_peek_cons ?_
      simp only [isNumber]
      exact follows_number (by rw [Token.isNumber, isNumber]) .done
    · next name isName =>
      refine follows_unary_primary (unsigned isName (by simp)) ?_
      rw [primary]
      refine follows_peek_cons ?_
      simp only [isName]
      exact follows_advance (follows_afterName inner name rest _ (by omega))
    · next opens =>
      refine follows_unary_primary (unsigned opens (by simp)) ?_
      rw [primary]
      refine follows_peek_cons ?_
      simp only [opens]
      refine follows_advance (((inner rest fuel (by omega)).weaken _).andThen
        fun e behind lighter _ _ => ?_)
      exact (follows_expect (by decide) _ behind lighter).map _
    · next opens =>
      refine follows_unary_primary (unsigned opens (by simp)) ?_
      rw [primary]
      refine follows_peek_cons ?_
      simp only [opens]
      exact follows_matrix inner opens (by omega)
    · next noMinus noPlus noNumber noName noParen noBracket =>
      refine follows_unary_primary (fun u op first isOp => ?_)
        (follows_primary_unexpected rfl noNumber noName noParen noBracket)
      obtain rfl := Option.some.inj first
      rw [Bool.or_eq_false_iff, beq_eq_false_iff_ne, beq_eq_false_iff_ne]
      exact ⟨fun plus => noPlus (plus ▸ isOp), fun minus => noMinus (minus ▸ isOp)⟩

/-! ## Expressions -/

/-- With as many levels allowed as are left of the limit, operands and expressions are read as over
the stream. -/
theorem reads_unary_and_expression (room : Nat) (left : depth + room = b.maxDepth) :
    Reads unary b depth 5 (Expr.operand b room) ∧
      Reads expression b depth 11 (Expr.expression b room) := by
  induction room generalizing depth with
  | zero =>
    have inner : Reads expression b depth 11 (Expr.expression b 0) := by
      intro tokens fuel enough
      obtain ⟨fuel, rfl⟩ := Nat.exists_eq_add_of_le' (show 1 ≤ fuel by omega)
      rw [expression]
      exact follows_within_tooDeep left tokens
    rw [Expr.operand_eq]
    exact ⟨reads_unary (fun tokens _ _ => follows_within_tooDeep left tokens) inner, inner⟩
  | succ room ih =>
    have deeper : Reads unary b (depth + 1) 5 (Expr.operand b room) := (ih (by omega)).1
    have allowed : depth < b.maxDepth := by omega
    have inner : Reads expression b depth 11 (Expr.expression b (room + 1)) := by
      intro tokens fuel enough
      obtain ⟨fuel, rfl⟩ := Nat.exists_eq_add_of_le' (show 1 ≤ fuel by omega)
      rw [expression]
      exact follows_within allowed (reads_levels deeper tokens fuel (by omega))
    rw [Expr.operand_eq]
    have below : Reads (fun fuel => within (unary fuel)) b depth 5 (belowSign b (room + 1)) :=
      fun tokens fuel enough => follows_within allowed (deeper tokens fuel enough)
    exact ⟨reads_unary below inner, inner⟩

end Procedure

end Reckon
