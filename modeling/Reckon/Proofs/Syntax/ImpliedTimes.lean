import Mathlib.Data.List.Chain
import Reckon.Proofs.Syntax.Grammar
import Reckon.Proofs.Syntax.Procedures

/-!
# The products that are understood

The parser puts a `*` between a number and a name when it takes the number. It reads the tokens with
all these `*` put in beforehand in the same way: at every point the second stream is the first one
with the `*` that are still to come, every result and every fault is the same, and nothing is put in
any more. The statement is made once for each way of combining parsers and then for the procedures
one after the other.
-/

namespace Reckon

namespace Token

open Reckon.Expr (behindClosing? beginsDefinition)

/-- What is understood between two tokens: a `*` in front of a name behind a number. -/
def implied (t u : Token) : List Token :=
  if t.isNumber && u.isName then [impliedTimes u.position] else []

/-- The tokens with everything that is understood between them. -/
def elaborated : List Token → List Token
  | [] => []
  | [t] => [t]
  | t :: u :: rest => t :: (implied t u ++ elaborated (u :: rest))

/-! ## Elaborated streams -/

/-- Only a token that is no number is taken without anything being put in behind it. -/
theorem elaborated_cons {t : Token} (other : t.isNumber = false) (rest : List Token) :
    elaborated (t :: rest) = t :: elaborated rest := by
  cases rest with
  | nil => rfl
  | cons u us =>
    rw [elaborated, implied, other, Bool.false_and, if_neg Bool.false_ne_true, List.nil_append]

/-- A token that is no number is kept, and nothing is put behind it. -/
theorem elaborated_of_kind {t : Token} {k : Kind} (same : t.kind = k)
    (other : ∀ value, k ≠ .number value) (rest : List Token) :
    elaborated (t :: rest) = t :: elaborated rest :=
  elaborated_cons (Grammar.isNumber_eq_false (same ▸ other)) rest

/-- A number is taken with the `*` that is understood behind it. -/
theorem elaborated_number {t : Token} (number : t.isNumber = true) (rest : List Token) :
    elaborated (t :: rest) = t :: elaborated (withImpliedTimes rest) := by
  cases rest with
  | nil => rfl
  | cons u us =>
    rw [elaborated, implied, number, Bool.true_and, withImpliedTimes]
    by_cases named : u.isName = true
    · have times : (impliedTimes u.position).isNumber = false := rfl
      rw [if_pos named, if_pos named, elaborated_cons times]
      rfl
    · rw [if_neg named, if_neg named, List.nil_append]

/-- The first token stays where it is. -/
theorem exists_elaborated_cons (t : Token) (rest : List Token) :
    ∃ behind, elaborated (t :: rest) = t :: behind := by
  cases rest with
  | nil => exact ⟨[], rfl⟩
  | cons u us => exact ⟨_, rfl⟩

/-- The head of the tokens is kept. -/
theorem head?_elaborated (tokens : List Token) : (elaborated tokens).head? = tokens.head? := by
  cases tokens with
  | nil => rfl
  | cons t rest =>
    obtain ⟨behind, same⟩ := exists_elaborated_cons t rest
    rw [same, List.head?_cons, List.head?_cons]

/-- Whether a name with an opening parenthesis is ahead does not depend on implied products. -/
theorem startsWithName_elaborated (tokens : List Token) :
    startsWithName (elaborated tokens) = startsWithName tokens := by
  cases tokens with
  | nil => rfl
  | cons t rest =>
    obtain ⟨behind, same⟩ := exists_elaborated_cons t rest
    rw [same, startsWithName, startsWithName]

/-- Once a `*` is put in, nothing more is understood in front of the stream. -/
theorem startsWithName_withImpliedTimes (tokens : List Token) :
    startsWithName (withImpliedTimes tokens) = false := by
  cases tokens with
  | nil => rfl
  | cons t rest =>
    rw [withImpliedTimes]
    split
    · rfl
    · next other => exact eq_false_of_ne_true other

/-- Behind a number of an elaborated stream nothing is put in. -/
theorem withImpliedTimes_elaborated (tokens : List Token) :
    withImpliedTimes (elaborated (withImpliedTimes tokens)) =
      elaborated (withImpliedTimes tokens) := by
  rw [withImpliedTimes_eq_self]
  rw [startsWithName_elaborated, startsWithName_withImpliedTimes]

/-- The token at the cursor is the same, whether or not products are written out. -/
theorem next_elaborated (finish : Nat) (tokens : List Token) :
    next finish (elaborated tokens) = next finish tokens := by
  cases tokens with
  | nil => rfl
  | cons t rest =>
    obtain ⟨behind, same⟩ := exists_elaborated_cons t rest
    rw [same, next, next]

/-- A number token has a value. -/
theorem exists_of_isNumber {t : Token} (h : t.isNumber = true) :
    ∃ value, t.kind = .number value := by
  unfold isNumber at h
  split at h
  · next value isKind => exact ⟨value, isKind⟩
  · cases h

/-- A `*` that is put in is not counted as a parenthesis. -/
theorem behindClosing?_withImpliedTimes (inner : Nat) (tokens : List Token) :
    behindClosing? inner (elaborated (withImpliedTimes tokens)) =
      behindClosing? inner (elaborated tokens) := by
  cases tokens with
  | nil => rfl
  | cons t rest =>
    rw [withImpliedTimes]
    split
    · have times : (impliedTimes t.position).isNumber = false := rfl
      rw [elaborated_cons times]
      rfl
    · rfl

/-- The parenthesis that closes the one just opened stands in front of the same tokens. -/
theorem behindClosing?_elaborated (inner : Nat) (tokens : List Token) :
    behindClosing? inner (elaborated tokens) = (behindClosing? inner tokens).map elaborated := by
  induction tokens generalizing inner with
  | nil => rfl
  | cons t rest ih =>
    by_cases number : t.isNumber = true
    · have skipped (behind : List Token) :
          behindClosing? inner (t :: behind) = behindClosing? inner behind := by
        obtain ⟨value, isKind⟩ := exists_of_isNumber number
        conv => lhs; unfold behindClosing?
        simp only [isKind]
      rw [elaborated_number number, skipped, skipped, behindClosing?_withImpliedTimes, ih]
    · rw [elaborated_cons (eq_false_of_ne_true number)]
      unfold behindClosing?
      split
      · exact ih (inner + 1)
      · cases inner with
        | zero => rfl
        | succ inner => exact ih inner
      · exact ih inner

/-- A definition is told from a call in the same way. -/
theorem beginsDefinition_elaborated (tokens : List Token) :
    beginsDefinition (elaborated tokens) = beginsDefinition tokens := by
  rw [beginsDefinition, beginsDefinition, behindClosing?_elaborated]
  cases behindClosing? 0 tokens with
  | none => rfl
  | some behind =>
    cases behind with
    | nil => rfl
    | cons t rest =>
      obtain ⟨more, same⟩ := exists_elaborated_cons t rest
      rw [Option.map_some, same]

/-! ## What is put in -/

/-- Between two tokens exactly what is understood there is put in. -/
theorem elaborated_append (front : List Token) (t u : Token) (back : List Token) :
    elaborated (front ++ t :: u :: back) =
      elaborated (front ++ [t]) ++ implied t u ++ elaborated (u :: back) := by
  induction front with
  | nil => rfl
  | cons v front ih =>
    cases front with
    | nil =>
      have first : elaborated (t :: u :: back) = t :: (implied t u ++ elaborated (u :: back)) := rfl
      have second : elaborated [v, t] = v :: (implied v t ++ [t]) := rfl
      rw [List.cons_append, List.cons_append, List.nil_append, List.nil_append, elaborated, first,
        second]
      simp only [List.cons_append, List.append_assoc, List.nil_append]
    | cons w front =>
      rw [List.cons_append, List.cons_append] at ih
      rw [List.cons_append, List.cons_append, List.cons_append, List.cons_append, elaborated,
        elaborated, ih]
      simp only [List.cons_append, List.append_assoc]

/-- Nothing is understood between a token that is no number, or one that is no name, and another. -/
theorem implied_eq_nil {t u : Token} (h : t.isNumber = false ∨ u.isName = false) :
    implied t u = [] := by
  rw [implied]
  rcases h with noNumber | noName
  · rw [noNumber, Bool.false_and, if_neg Bool.false_ne_true]
  · rw [noName, Bool.and_false, if_neg Bool.false_ne_true]

/-- Nothing is understood between the tokens any more once everything is put in. -/
theorem isChain_elaborated (tokens : List Token) :
    (elaborated tokens).IsChain fun t u => implied t u = [] := by
  induction tokens with
  | nil => exact .nil
  | cons t rest ih =>
    have behind : (elaborated (withImpliedTimes rest)).IsChain fun t u => implied t u = [] := by
      cases rest with
      | nil => exact .nil
      | cons u us =>
        rw [withImpliedTimes]
        split
        · have times : (impliedTimes u.position).isNumber = false := rfl
          rw [elaborated_cons times]
          exact List.isChain_cons.2 ⟨fun _ _ => implied_eq_nil (.inl times), ih⟩
        · exact ih
    by_cases number : t.isNumber = true
    · have first : startsWithName (elaborated (withImpliedTimes rest)) = false := by
        rw [startsWithName_elaborated, startsWithName_withImpliedTimes]
      rw [elaborated_number number]
      refine List.isChain_cons.2 ⟨fun u isFirst => implied_eq_nil (.inr ?_), behind⟩
      obtain ⟨more, same⟩ := List.head?_eq_some_iff.1 isFirst
      rw [same] at first
      exact first
    · rw [elaborated_cons (eq_false_of_ne_true number)]
      exact List.isChain_cons.2
        ⟨fun _ _ => implied_eq_nil (.inl (eq_false_of_ne_true number)), ih⟩

/-- Where nothing is understood, nothing is put in. -/
theorem elaborated_eq_self {tokens : List Token} (h : tokens.IsChain fun t u => implied t u = []) :
    elaborated tokens = tokens := by
  induction h with
  | nil => rfl
  | singleton => rfl
  | cons_cons none _ ih => rw [elaborated, none, List.nil_append, ih]

/-! ## Up to the end token -/

/-- No finish is put in. -/
theorem isFinish_eq_false_of_mem_implied {t u v : Token} (h : v ∈ implied t u) :
    v.isFinish = false := by
  rw [implied] at h
  split at h
  · obtain rfl := List.mem_singleton.1 h
    rfl
  · cases h

/-- Nothing is put in front of a finish. -/
theorem implied_of_isFinish {t u : Token} (h : u.isFinish = true) : implied t u = [] := by
  refine implied_eq_nil (.inr ?_)
  rw [isFinish, beq_iff_eq] at h
  rw [isName, h]

/-- The tokens in front of the finish are elaborated on their own. -/
theorem takeWhile_elaborated (tokens : List Token) :
    (elaborated tokens).takeWhile (fun t => !t.isFinish) =
      elaborated (tokens.takeWhile fun t => !t.isFinish) := by
  fun_induction elaborated tokens with
  | case1 => rfl
  | case2 t => cases finish : t.isFinish <;> simp [finish, elaborated]
  | case3 t u rest ih =>
    have kept : ∀ v ∈ implied t u, (!v.isFinish) = true := by
      intro v mem
      rw [isFinish_eq_false_of_mem_implied mem]
      rfl
    cases finish : t.isFinish with
    | true => simp [finish, elaborated]
    | false =>
      cases finish' : u.isFinish with
      | true =>
        rw [List.takeWhile_cons_of_pos (by rw [finish]; rfl),
          List.takeWhile_cons_of_pos (by rw [finish]; rfl), List.takeWhile_append_of_pos kept, ih,
          implied_of_isFinish finish', List.takeWhile_cons_of_neg (by rw [finish']; nofun)]
        rfl
      | false =>
        rw [List.takeWhile_cons_of_pos (by rw [finish]; rfl),
          List.takeWhile_cons_of_pos (by rw [finish]; rfl), List.takeWhile_append_of_pos kept, ih,
          List.takeWhile_cons_of_pos (by rw [finish']; rfl), elaborated]

/-- The first finish stays the first one. -/
theorem find?_elaborated (tokens : List Token) :
    (elaborated tokens).find? isFinish = tokens.find? isFinish := by
  fun_induction elaborated tokens with
  | case1 => rfl
  | case2 t => rfl
  | case3 t u rest ih =>
    have none : (implied t u).find? isFinish = none := by
      rw [List.find?_eq_none]
      intro v mem
      rw [isFinish_eq_false_of_mem_implied mem]
      exact Bool.false_ne_true
    rw [List.find?_cons, List.find?_cons, List.find?_append, none, Option.none_or, ih]

/-- The last token is kept. -/
theorem getLast?_elaborated (tokens : List Token) :
    (elaborated tokens).getLast? = tokens.getLast? := by
  fun_induction elaborated tokens with
  | case1 => rfl
  | case2 t => rfl
  | case3 t u rest ih =>
    obtain ⟨behind, same⟩ := exists_elaborated_cons u rest
    rw [List.getLast?_cons_cons, ← ih, same, ← List.cons_append, List.getLast?_append]
    rfl

/-- The text ends at the same position. -/
theorem finishOf_elaborated (tokens : List Token) :
    finishOf (elaborated tokens) = finishOf tokens := by
  rw [finishOf, finishOf, find?_elaborated, getLast?_elaborated]

end Token

namespace Expr

open Token

/-! ## Steps over elaborated streams -/

namespace Step

variable {α β : Type} {bound bound' larger larger' : Nat}

/-- The second step is the first one over the elaborated stream: it ends with the same result or the
same fault, in front of what is left of the first stream, elaborated. -/
inductive Elaborates : Step α bound → Step α bound' → Prop where
  | done {value : α} {rest : List Token} {lighter : weight rest < bound}
      {lighter' : weight (elaborated rest) < bound'} :
      Elaborates (.done value rest lighter) (.done value (elaborated rest) lighter')
  | stuck {fault : Fault} {rest : List Token} :
      Elaborates (.stuck fault rest) (.stuck fault (elaborated rest))

variable {plain : Step α bound} {full : Step α bound'}

/-- Results may be mapped on both sides. -/
theorem Elaborates.map (h : plain.Elaborates full) (f : α → β) :
    (plain.map f).Elaborates (full.map f) := by
  cases h with
  | done => exact .done
  | stuck => exact .stuck

/-- The bounds of both runs may be enlarged. -/
theorem Elaborates.weaken (h : plain.Elaborates full) (le : bound ≤ larger)
    (le' : bound' ≤ larger') : (plain.weaken le).Elaborates (full.weaken le') := by
  cases h with
  | done => exact .done
  | stuck => exact .stuck

/-- Steps one after the other agree if both parts do. -/
theorem Elaborates.andThen (h : plain.Elaborates full)
    {next : (value : α) → (rest : List Token) → weight rest < bound → Step β bound}
    {next' : (value : α) → (rest : List Token) → weight rest < bound' → Step β bound'}
    (goesOn : ∀ value rest lighter lighter', plain.Yields value rest →
      (next value rest lighter).Elaborates (next' value (elaborated rest) lighter')) :
    (plain.andThen next).Elaborates (full.andThen next') := by
  cases h with
  | done => exact goesOn _ _ _ _ ⟨_, rfl⟩
  | stuck => exact .stuck

/-- The plain outcomes are the same, one in front of the elaborated stream. -/
theorem Elaborates.outcome (h : plain.Elaborates full) :
    full.outcome = (plain.outcome.1, elaborated plain.outcome.2) := by
  cases h <;> rfl

end Step

/-- A parser reads elaborated streams as the other one reads plain ones. -/
def Elaborates {α : Type} (plain full : Parser α) : Prop :=
  ∀ tokens, (plain tokens).Elaborates (full (elaborated tokens))

namespace Bounds

variable {α : Type} {bound bound' : Nat} {b : Bounds}

/-- Both runs are stopped by the limit alike. -/
theorem elaborates_tooDeep (b : Bounds) (tokens : List Token) :
    (b.tooDeep tokens : Step α bound).Elaborates
      (b.tooDeep (elaborated tokens) : Step α bound') :=
  .stuck

/-- Faults name the next token, which is the same one. -/
theorem elaborates_complain (problem : String → ParseProblem) (tokens : List Token) :
    (b.complain problem tokens : Step α bound).Elaborates
      (b.complain problem (elaborated tokens) : Step α bound') := by
  rw [complain, complain, next_elaborated]
  exact .stuck

/-- A tree is accepted by the limit in both runs or in neither. -/
theorem elaborates_bounded (e : Expr) (rest : List Token) (h : weight rest < bound)
    (h' : weight (elaborated rest) < bound') :
    (b.bounded e rest h).Elaborates (b.bounded e (elaborated rest) h') := by
  unfold bounded
  split
  · exact b.elaborates_tooDeep rest
  · exact .done

/-- Both runs find the expected token or complain alike. -/
theorem elaborates_expect {kind : Token.Kind} (other : ∀ value, kind ≠ .number value)
    (problem : String → ParseProblem) (tokens : List Token) (h : weight tokens < bound)
    (h' : weight (elaborated tokens) < bound') :
    (b.expect kind problem tokens h).Elaborates (b.expect kind problem (elaborated tokens) h') := by
  have complains : (b.complain problem tokens : Step Unit bound).Elaborates
      (b.complain problem (elaborated tokens) : Step Unit bound') :=
    elaborates_complain problem tokens
  cases tokens with
  | nil => exact complains
  | cons t rest =>
    by_cases same : t.kind = kind
    · have taken := elaborated_of_kind same other rest
      simp only [taken]
      rw [expect, expect, if_pos same, if_pos same]
      exact .done
    · obtain ⟨behind, taken⟩ := exists_elaborated_cons t rest
      simp only [taken] at complains ⊢
      rw [expect, expect, if_neg same, if_neg same]
      exact complains

end Bounds

section Procedures

variable {b : Bounds} {operand operand' signed signed' nested nested' : Parser Expr}
  {bound bound' : Nat}

/-- The operator ahead is of the same level in both runs. -/
theorem operatorAhead_elaborated (level : Nat) (tokens : List Token) :
    operatorAhead level (elaborated tokens) = operatorAhead level tokens := by
  cases tokens with
  | nil => rfl
  | cons t rest =>
    obtain ⟨behind, same⟩ := exists_elaborated_cons t rest
    rw [same, operatorAhead, operatorAhead]

/-- A chain of operators is read alike if its operands are. -/
theorem elaborates_chain (below : Elaborates operand operand') (level : Nat) (left : Expr)
    (tokens : List Token) (h : weight tokens < bound) (h' : weight (elaborated tokens) < bound') :
    (chain b operand level left tokens h).Elaborates
      (chain b operand' level left (elaborated tokens) h') := by
  induction size : weight tokens using Nat.strongRecOn generalizing left tokens with
  | ind size' ih =>
    by_cases ahead : operatorAhead level tokens = true
    · obtain ⟨t, rest, op, rfl, isOp, same⟩ := exists_of_operatorAhead ahead
      have taken := elaborated_of_kind isOp (by simp) rest
      simp only [taken]
      rw [chain_operator isOp same, chain_operator isOp same]
      refine ((below rest).weaken _ _).andThen fun right behind _ _ read => ?_
      refine (Bounds.elaborates_bounded _ behind _ _).andThen fun joined stop _ _ bounded => ?_
      obtain ⟨_, _, rfl⟩ := Bounds.yields_bounded.1 bounded
      have smaller : weight behind < size' := by
        have taken := weight_lt_cons t rest
        have := (Step.yields_weaken.1 read).choose
        omega
      exact ih _ smaller joined behind _ _ rfl
    · have ended : operatorAhead level tokens = false := eq_false_of_ne_true ahead
      have ended' : operatorAhead level (elaborated tokens) = false := by
        rw [operatorAhead_elaborated, ended]
      rw [chain_end ended, chain_end ended']
      exact .done

/-- A level of operators is read alike if its operands are. -/
theorem elaborates_binaryLevel (below : Elaborates operand operand') (level : Nat) :
    Elaborates (binaryLevel b operand level) (binaryLevel b operand' level) :=
  fun tokens => (below tokens).andThen fun left rest lighter lighter' _ =>
    elaborates_chain below level left rest lighter lighter'

/-- All levels of operators are read alike if the operands are. -/
theorem elaborates_levels (below : Elaborates operand operand') :
    Elaborates (levels b operand) (levels b operand') := by
  have powers := elaborates_binaryLevel (b := b) below 4
  have products := elaborates_binaryLevel (b := b) powers 3
  have sums := elaborates_binaryLevel (b := b) products 2
  exact elaborates_binaryLevel sums 1

/-- The arguments of a call are read alike. -/
theorem elaborates_arguments (inner : Elaborates nested nested') (name : String)
    (tokens : List Token) (h : weight tokens < bound) (h' : weight (elaborated tokens) < bound') :
    (arguments b nested name tokens h).Elaborates
      (arguments b nested' name (elaborated tokens) h') := by
  induction size : weight tokens using Nat.strongRecOn generalizing tokens with
  | ind size' ih =>
    rw [arguments_eq, arguments_eq]
    refine ((inner tokens).weaken _ _).andThen fun arg rest _ lighter' read => ?_
    have complains :
        (b.complain (.noArgumentSeparator name) rest : Step (List Expr) bound).Elaborates
          (b.complain (.noArgumentSeparator name) (elaborated rest) : Step (List Expr) bound') :=
      Bounds.elaborates_complain (.noArgumentSeparator name) rest
    cases rest with
    | nil => exact complains
    | cons t behind =>
      have smaller : weight behind < size' := by
        have taken := weight_lt_cons t behind
        have := (Step.yields_weaken.1 read).choose
        omega
      by_cases comma : t.kind = .comma
      · have taken := elaborated_of_kind comma (by simp) behind
        revert lighter'
        rw [taken]
        intro lighter'
        simp only [if_pos comma]
        exact (ih _ smaller behind _ _ rfl).map _
      · by_cases close : t.kind = .rightParen
        · have taken := elaborated_of_kind close (by simp) behind
          revert lighter'
          rw [taken]
          intro lighter'
          simp only [if_neg comma, if_pos close]
          exact .done
        · obtain ⟨more, taken⟩ := exists_elaborated_cons t behind
          revert lighter' complains
          rw [taken]
          intro lighter' complains
          simp only [if_neg comma, if_neg close]
          exact complains

/-- A comma that is passed over is the same one. -/
theorem skipComma_elaborated (tokens : List Token) :
    skipComma (elaborated tokens) = elaborated (skipComma tokens) := by
  cases tokens with
  | nil => rfl
  | cons t rest =>
    by_cases comma : t.kind = .comma
    · rw [elaborated_of_kind comma (by simp), skipComma, skipComma,
        if_pos comma, if_pos comma]
    · obtain ⟨behind, taken⟩ := exists_elaborated_cons t rest
      rw [skipComma, if_neg comma, taken, skipComma, if_neg comma]

/-- The elements of a vector are read alike. -/
theorem elaborates_elements (inner : Elaborates nested nested') (tokens : List Token)
    (h : weight tokens < bound) (h' : weight (elaborated tokens) < bound') :
    (elements b nested tokens h).Elaborates (elements b nested' (elaborated tokens) h') := by
  induction size : weight tokens using Nat.strongRecOn generalizing tokens with
  | ind size' ih =>
    cases tokens with
    | nil =>
      unfold elements
      have ends :
          (.stuck (.parse .unterminatedVector b.finish) [] : Step (List Expr) bound).Elaborates
            (.stuck (.parse .unterminatedVector b.finish) [] : Step (List Expr) bound') := .stuck
      exact ends
    | cons t rest =>
      by_cases close : t.kind = .rightBracket
      · have taken := elaborated_of_kind close (by simp) rest
        simp only [taken]
        rw [elements, elements, if_pos close, if_pos close]
        exact .done
      · have read := inner (t :: rest)
        obtain ⟨behind, taken⟩ := exists_elaborated_cons t rest
        revert h' read
        rw [taken]
        intro h' read
        rw [elements_cons close, elements_cons close]
        refine (read.weaken _ _).andThen fun item behind _ lighter' read => ?_
        have smaller : weight (skipComma behind) < size' := by
          have skipped := weight_skipComma_le behind
          have := (Step.yields_weaken.1 read).choose
          omega
        have skipped := weight_skipComma_le (elaborated behind)
        revert skipped
        simp only [skipComma_elaborated]
        intro skipped
        exact (ih _ smaller _ _ _ rfl).map _

/-- What follows the bracket of a vector is read alike. -/
theorem elaborates_vectorTail (inner : Elaborates nested nested') (tokens : List Token)
    (h : weight tokens < bound) (h' : weight (elaborated tokens) < bound') :
    (vectorTail b nested tokens h).Elaborates (vectorTail b nested' (elaborated tokens) h') :=
  (elaborates_elements inner tokens h h').andThen fun _ rest lighter lighter' _ =>
    Bounds.elaborates_bounded _ rest lighter lighter'

/-- A run of bracketed columns is read alike. -/
theorem elaborates_columnRun (inner : Elaborates nested nested') (tokens : List Token)
    (h : weight tokens < bound) (h' : weight (elaborated tokens) < bound') :
    (columnRun b nested tokens h).Elaborates (columnRun b nested' (elaborated tokens) h') := by
  induction size : weight tokens using Nat.strongRecOn generalizing tokens with
  | ind size' ih =>
    by_cases opens : tokens.head?.map Token.kind = some .leftBracket
    · obtain ⟨t, rest, rfl, bracket⟩ := exists_of_head? opens
      have taken := elaborated_of_kind bracket (by simp) rest
      simp only [taken]
      rw [columnRun_bracket bracket, columnRun_bracket bracket]
      refine ((elaborates_vectorTail inner rest _ _).weaken _ _).andThen
        fun column behind _ _ read => ?_
      have smaller : weight behind < size' := by
        have taken := (Step.yields_weaken.1 read).choose
        omega
      exact (ih _ smaller behind _ _ rfl).map _
    · have opens' : (elaborated tokens).head?.map Token.kind ≠ some .leftBracket := by
        rw [head?_elaborated]
        exact opens
      rw [columnRun_end opens, columnRun_end opens']
      exact .done

/-- What follows the bracket of a matrix is read alike. -/
theorem elaborates_matrixTail (inner : Elaborates nested nested') (tokens : List Token)
    (h : weight tokens < bound) (h' : weight (elaborated tokens) < bound') :
    (matrixTail b nested tokens h).Elaborates (matrixTail b nested' (elaborated tokens) h') := by
  refine (elaborates_vectorTail inner tokens h h').andThen fun column rest lighter lighter' _ => ?_
  refine (elaborates_columnRun inner rest lighter lighter').andThen
    fun columns behind less less' _ => ?_
  exact Bounds.elaborates_bounded _ behind less less'

/-- What follows a sign is read alike. -/
theorem elaborates_signTail (below : Elaborates signed signed') (sign : Sign) (tokens : List Token)
    (h : weight tokens < bound) (h' : weight (elaborated tokens) < bound') :
    (signTail b signed sign tokens h).Elaborates
      (signTail b signed' sign (elaborated tokens) h') :=
  ((below tokens).weaken _ _).andThen fun _ rest lighter lighter' _ =>
    Bounds.elaborates_bounded _ rest lighter lighter'

/-- What follows the parenthesis of a call is read alike. -/
theorem elaborates_callTail (inner : Elaborates nested nested') (name : String)
    (tokens : List Token) (h : weight tokens < bound) (h' : weight (elaborated tokens) < bound') :
    (callTail b nested name tokens h).Elaborates
      (callTail b nested' name (elaborated tokens) h') := by
  have general : ((arguments b nested name tokens h).andThen fun args rest lighter =>
        b.bounded (.call name args) rest lighter).Elaborates
      ((arguments b nested' name (elaborated tokens) h').andThen fun args rest lighter =>
        b.bounded (.call name args) rest lighter) :=
    (elaborates_arguments inner name tokens h h').andThen fun _ rest lighter lighter' _ =>
      Bounds.elaborates_bounded _ rest lighter lighter'
  cases tokens with
  | nil => exact general
  | cons t rest =>
    by_cases close : t.kind = .rightParen
    · have taken := elaborated_of_kind close (by simp) rest
      simp only [taken]
      rw [callTail, callTail, if_pos close, if_pos close]
      exact .done
    · obtain ⟨behind, taken⟩ := exists_elaborated_cons t rest
      simp only [taken] at general ⊢
      rw [callTail, callTail, if_neg close, if_neg close]
      exact general

/-- The parameters of a definition are read alike. -/
theorem elaborates_parameters (tokens : List Token) (h : weight tokens < bound)
    (h' : weight (elaborated tokens) < bound') :
    (parameters b tokens h).Elaborates (parameters b (elaborated tokens) h') := by
  induction size : weight tokens using Nat.strongRecOn generalizing tokens with
  | ind size' ih =>
    have complains : (b.complain .noParameterName tokens : Step (List String) bound).Elaborates
        (b.complain .noParameterName (elaborated tokens) : Step (List String) bound') :=
      Bounds.elaborates_complain .noParameterName tokens
    cases tokens with
    | nil => exact complains
    | cons t rest =>
      by_cases named : ∃ name, t.kind = .name name
      · obtain ⟨name, isName⟩ := named
        have taken := elaborated_of_kind isName (by simp) rest
        have ends : ∀ lighter lighter',
            (.done [name] rest lighter : Step (List String) bound).Elaborates
              (.done [name] (elaborated rest) lighter' : Step (List String) bound') :=
          fun _ _ => .done
        revert h'
        rw [taken]
        intro h'
        rw [parameters, parameters]
        simp only [isName]
        cases rest with
        | nil => exact ends _ _
        | cons u after =>
          by_cases comma : u.kind = .comma
          · have smaller : weight after < size' := by
              have takenName := weight_lt_cons t (u :: after)
              have takenComma := weight_lt_cons u after
              omega
            have takenComma := elaborated_of_kind comma (by simp) after
            revert h'
            rw [takenComma]
            intro h'
            simp only [if_pos comma]
            exact (ih _ smaller after _ _ rfl).map _
          · obtain ⟨behind, takenOther⟩ := exists_elaborated_cons u after
            revert h' ends
            rw [takenOther]
            intro ends h'
            simp only [if_neg comma]
            exact ends _ _
      · obtain ⟨behind, taken⟩ := exists_elaborated_cons t rest
        simp only [taken] at complains ⊢
        unfold parameters
        split
        · next name isName => exact absurd ⟨name, isName⟩ named
        · exact complains

/-- A list of parameters in parentheses is read alike. -/
theorem elaborates_parameterList (tokens : List Token) (h : weight tokens < bound)
    (h' : weight (elaborated tokens) < bound') :
    (parameterList b tokens h).Elaborates (parameterList b (elaborated tokens) h') := by
  rw [parameterList, parameterList, next_elaborated]
  refine Step.Elaborates.andThen ?_ fun params rest lighter lighter' _ => ?_
  · split
    · exact .done
    · exact elaborates_parameters tokens h h'
  · refine (Bounds.elaborates_expect (by simp) _ rest lighter lighter').andThen
      fun _ behind _ _ _ => ?_
    exact .done

/-- What follows the name in a definition is read alike. -/
theorem elaborates_definitionTail (inner : Elaborates nested nested') (name : String)
    (tokens : List Token) (h : weight tokens < bound) (h' : weight (elaborated tokens) < bound') :
    (definitionTail b nested name tokens h).Elaborates
      (definitionTail b nested' name (elaborated tokens) h') := by
  refine (elaborates_parameterList tokens h h').andThen fun params rest lighter lighter' _ => ?_
  refine (Bounds.elaborates_expect (by simp) _ rest lighter lighter').andThen
    fun _ behind _ _ _ => ?_
  refine ((inner behind).weaken _ _).andThen fun body rest lighter lighter' _ => ?_
  exact Bounds.elaborates_bounded _ rest lighter lighter'

/-- What follows a name is read alike. -/
theorem elaborates_nameTail (inner : Elaborates nested nested') (name : String)
    (tokens : List Token) (h : weight tokens < bound) (h' : weight (elaborated tokens) < bound') :
    (nameTail b nested name tokens h).Elaborates
      (nameTail b nested' name (elaborated tokens) h') := by
  cases tokens with
  | nil =>
    have ends : (.done (.plain name) [] h : Step Expr bound).Elaborates
        (.done (.plain name) [] h' : Step Expr bound') := .done
    exact ends
  | cons t rest =>
    by_cases opens : t.kind = .leftParen
    · have taken := elaborated_of_kind opens (by simp) rest
      simp only [taken]
      rw [nameTail, nameTail, if_pos opens, if_pos opens, beginsDefinition_elaborated]
      split
      · exact elaborates_definitionTail inner name rest _ _
      · exact elaborates_callTail inner name rest _ _
    · have ends : (.done (.plain name) (t :: rest) h : Step Expr bound).Elaborates
          (.done (.plain name) (elaborated (t :: rest)) h' : Step Expr bound') := .done
      obtain ⟨behind, taken⟩ := exists_elaborated_cons t rest
      simp only [taken] at ends ⊢
      rw [nameTail, nameTail, if_neg opens, if_neg opens]
      exact ends

/-- The parser behind a number finds the `*` in the stream, where the other one puts it in. -/
theorem elaborates_operandWith (below : Elaborates signed signed')
    (inner : Elaborates nested nested') :
    Elaborates (operandWith b signed nested) (operandWith b signed' nested') := by
  intro tokens
  cases tokens with
  | nil => exact Bounds.elaborates_complain _ []
  | cons t rest =>
    have complains :
        (b.complain .unexpected (t :: rest) : Step Expr (weight (t :: rest))).Elaborates
          (b.complain .unexpected (elaborated (t :: rest)) :
            Step Expr (weight (elaborated (t :: rest)))) :=
      Bounds.elaborates_complain .unexpected (t :: rest)
    by_cases number : t.isNumber = true
    · obtain ⟨value, isNumber⟩ := exists_of_isNumber number
      rw [elaborated_number number]
      unfold operandWith
      simp only
      split
      · next same => cases isNumber.symm.trans same
      · next same => cases isNumber.symm.trans same
      · simp only [withImpliedTimes_elaborated]
        exact .done
      · next same => cases isNumber.symm.trans same
      · next same => cases isNumber.symm.trans same
      · next same => cases isNumber.symm.trans same
      · next other _ _ _ => exact absurd isNumber (other value)
    · have other : ∀ value, t.kind ≠ .number value := by
        intro value isNumber
        exact number (Grammar.isNumber_eq_true isNumber)
      revert complains
      rw [elaborated_cons (eq_false_of_ne_true number)]
      intro complains
      unfold operandWith
      simp only
      split
      · exact elaborates_signTail below .negative rest _ _
      · exact elaborates_signTail below .positive rest _ _
      · next value isNumber => exact absurd isNumber (other value)
      · exact elaborates_nameTail inner _ rest _ _
      · refine ((inner rest).weaken _ _).andThen fun e behind lighter lighter' _ => ?_
        exact (Bounds.elaborates_expect (by simp) _ behind lighter lighter').map _
      · exact elaborates_matrixTail inner rest _ _
      · exact complains

/-- An operand is read alike, whatever the room. -/
theorem elaborates_operand (room : Nat) :
    Elaborates (Expr.operand b room) (Expr.operand b room) := by
  induction room with
  | zero =>
    exact elaborates_operandWith (fun rest => b.elaborates_tooDeep rest)
      fun rest => b.elaborates_tooDeep rest
  | succ room ih => exact elaborates_operandWith ih (elaborates_levels ih)

/-- An expression is read from the elaborated stream as it is from the plain one. -/
theorem elaborates_expression (room : Nat) :
    Elaborates (expression b room) (expression b room) := by
  cases room with
  | zero => exact fun tokens => b.elaborates_tooDeep tokens
  | succ room => exact elaborates_levels (elaborates_operand room)

end Procedures

/-! ## Whole streams -/

/-- From a cursor one expression is read with the same outcome, and what is left is left
elaborated. -/
theorem cursor_elaborated (maxDepth : Nat) (tokens : List Token) :
    (Cursor.ofTokens (elaborated tokens)).expression maxDepth =
      (((Cursor.ofTokens tokens).expression maxDepth).1,
        ⟨elaborated ((Cursor.ofTokens tokens).expression maxDepth).2.ahead, finishOf tokens⟩) := by
  have same := (elaborates_expression (b := ⟨maxDepth, finishOf tokens⟩) maxDepth
    (tokens.takeWhile fun t => !t.isFinish)).outcome
  rw [← takeWhile_elaborated] at same
  simp only [Cursor.expression, Cursor.ofTokens, finishOf_elaborated, same]

/-- The end of the tokens is found or missed alike. -/
theorem expectEnd_elaborated (tokens : List Token) (finish : Nat) :
    Cursor.expectEnd ⟨elaborated tokens, finish⟩ = Cursor.expectEnd ⟨tokens, finish⟩ := by
  cases tokens with
  | nil => rfl
  | cons t rest =>
    obtain ⟨behind, same⟩ := exists_elaborated_cons t rest
    rw [same, Cursor.expectEnd, Cursor.expectEnd]

/-- Writing out the implied products changes no result. -/
theorem ofTokens_elaborated (maxDepth : Nat) (tokens : List Token) :
    ofTokens maxDepth (elaborated tokens) = ofTokens maxDepth tokens := by
  rw [ofTokens, ofTokens, cursor_elaborated]
  simp only [expectEnd_elaborated]
  rfl

/-- Products of a number and a name directly behind it are a matter of the tokens alone. Under every
limit, tokens are read or refused in the same way, with the same fault, whether every `*` that is
understood is put in beforehand or by the parser, at the end and wherever the parser stops; so a
text is parsed as its elaborated tokens. What is put in between two tokens is exactly what is
understood there, nothing is understood between the tokens afterwards, and nothing is put in
twice. -/
theorem reads_elaborated_tokens (maxDepth : Nat) :
    (∀ tokens, ofTokens maxDepth (elaborated tokens) = ofTokens maxDepth tokens) ∧
      (∀ tokens, (Cursor.ofTokens (elaborated tokens)).expression maxDepth =
        (((Cursor.ofTokens tokens).expression maxDepth).1,
          ⟨elaborated ((Cursor.ofTokens tokens).expression maxDepth).2.ahead, finishOf tokens⟩)) ∧
      (∀ text, parse maxDepth text =
        (tokenize text).bind fun tokens => ofTokens maxDepth (elaborated tokens)) ∧
      (∀ front t u back, elaborated (front ++ t :: u :: back) =
        elaborated (front ++ [t]) ++ implied t u ++ elaborated (u :: back)) ∧
      (∀ tokens, (elaborated tokens).IsChain fun t u => ¬(t.isNumber = true ∧ u.isName = true)) ∧
      ∀ tokens, elaborated (elaborated tokens) = elaborated tokens := by
  refine ⟨ofTokens_elaborated maxDepth, cursor_elaborated maxDepth, fun text => ?_,
    elaborated_append, fun tokens => ?_,
    fun tokens => elaborated_eq_self (isChain_elaborated tokens)⟩
  · rw [parse]
    cases tokenize text with
    | error fault => rfl
    | ok tokens => exact (ofTokens_elaborated maxDepth tokens).symm
  · refine (isChain_elaborated tokens).imp fun t u none both => ?_
    rw [implied, both.1, both.2] at none
    cases none

end Expr

end Reckon
