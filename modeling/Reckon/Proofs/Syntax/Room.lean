import Reckon.Proofs.Syntax.Limit
import Reckon.Proofs.Syntax.Soundness

/-!
# Room enough

A tree has no more levels than the tokens it is read from, and every level of nesting takes a token.
So the limit on nesting stops no text with fewer tokens.
-/

namespace Reckon.Grammar

open Token
open Reckon.Expr (Parser Bounds Step operandWith operand expression levels chain binaryLevel
  arguments elements columnRun parameters parameterList vectorTail)

/-! ## Height and length -/

mutual

/-- Every level of a tree takes a token of its own. -/
theorem Phrase.height_add_le : ∀ {depth level : Nat} {ks rest : List Kind} {e : Expr},
    Phrase depth level ks e rest → e.height + rest.length ≤ ks.length
  | _, _, _, _, _, .tighter _ phrase => phrase.height_add_le
  | _, _, _, _, _, .joined _ left right => by
    have onLeft := left.height_add_le
    have onRight := right.height_add_le
    rw [List.length_cons] at onLeft
    rw [Expr.height]
    omega
  | _, _, _, _, _, .signed phrase => by
    have inner := phrase.height_add_le
    rw [Expr.height, List.length_cons]
    omega
  | _, _, _, _, _, .number => by
    rw [Expr.height, List.length_cons]
    omega
  | _, _, _, _, _, .name _ => by
    rw [Expr.plain, Expr.height, List.length_cons]
    omega
  | _, _, _, _, _, .parenthesized whole => by
    have inner := whole.height_add_le
    rw [List.length_cons] at inner ⊢
    omega
  | _, _, _, _, _, .definition whole => by
    have inner := whole.height_add_le
    simp only [Expr.height, List.length_cons, List.length_append]
    omega
  | _, _, _, _, _, .call args _ => by
    have inner := args.height_add_lt
    simp only [Expr.height, List.length_cons]
    omega
  | _, _, _, _, _, .matrix (.more items columns) _ => by
    have first := items.height_add_lt
    have others := columns.height_add_le
    simp only [Expr.height, Expr.heightAll, List.length_cons]
    omega

/-- Every level of an expression takes a token of its own. -/
theorem Whole.height_add_le : ∀ {depth : Nat} {ks rest : List Kind} {e : Expr},
    Whole depth ks e rest → e.height + rest.length ≤ ks.length
  | _, _, _, _, .intro phrase _ => phrase.height_add_le

/-- Arguments take a token for every level, and one for the closing parenthesis. -/
theorem Arguments.height_add_lt : ∀ {depth : Nat} {ks rest : List Kind} {args : List Expr},
    Arguments depth ks args rest → Expr.heightAll args + rest.length < ks.length
  | _, _, _, _, .none => by
    rw [Expr.heightAll, List.length_cons]
    omega
  | _, _, _, _, .last whole => by
    have inner := whole.height_add_le
    rw [List.length_cons] at inner
    simp only [Expr.heightAll]
    omega
  | _, _, _, _, .more whole args => by
    have first := whole.height_add_le
    have others := args.height_add_lt
    rw [List.length_cons] at first
    rw [Expr.heightAll]
    omega

/-- Elements take a token for every level, and one for the closing bracket. -/
theorem Elements.height_add_lt : ∀ {depth : Nat} {ks rest : List Kind} {items : List Expr},
    Elements depth ks items rest → Expr.heightAll items + rest.length < ks.length
  | _, _, _, _, .none => by
    rw [Expr.heightAll, List.length_cons]
    omega
  | _, _, _, _, .plain whole items => by
    have first := whole.height_add_le
    have others := items.height_add_lt
    rw [Expr.heightAll]
    omega
  | _, _, _, _, .comma whole items => by
    have first := whole.height_add_le
    have others := items.height_add_lt
    rw [List.length_cons] at first
    rw [Expr.heightAll]
    omega

/-- Columns take a token for every level. -/
theorem Columns.height_add_le : ∀ {depth : Nat} {ks rest : List Kind} {columns : List Expr},
    Columns depth ks columns rest → Expr.heightAll columns + rest.length ≤ ks.length
  | _, _, _, _, .none => by
    rw [Expr.heightAll]
    omega
  | _, _, _, _, .more items columns => by
    have first := items.height_add_lt
    have others := columns.height_add_le
    simp only [Expr.heightAll, Expr.height, List.length_cons]
    omega

end

/-! ## Free runs -/

variable {b : Bounds} {depth most bound : Nat}

/-- The limit on nesting does not stop a parser on streams of at most the given weight. -/
def RunsFree (most : Nat) (p : Parser Expr) : Prop :=
  ∀ ⦃tokens : List Token⦄, weight tokens ≤ most → ¬(p tokens).AtLimit

/-- A complaint about a token is not one about the limit. -/
theorem not_atLimit_complain (b : Bounds) {α : Type} (problem : String → ParseProblem)
    (tokens : List Token) : ¬(b.complain problem tokens : Step α bound).AtLimit := by
  intro ⟨_, _, h⟩
  cases h

/-- Expecting a token does not come to the limit. -/
theorem not_atLimit_expect (b : Bounds) (kind : Kind) (problem : String → ParseProblem)
    (tokens : List Token) (h : weight tokens < bound) :
    ¬(b.expect kind problem tokens h).AtLimit := by
  cases tokens with
  | nil => exact not_atLimit_complain b problem []
  | cons t rest =>
    rw [Bounds.expect]
    split
    · exact Step.not_atLimit_done
    · exact not_atLimit_complain b problem _

/-- Trees that are low enough pass. -/
theorem not_atLimit_bounded {e : Expr} (low : e.height ≤ b.maxDepth) {rest : List Token}
    {h : weight rest < bound} : ¬(b.bounded e rest h).AtLimit := by
  rw [Bounds.bounded, if_neg (Nat.not_lt.2 low)]
  exact Step.not_atLimit_done

/-- A chain of operators over few tokens does not come to the limit. -/
theorem chain_runsFree {level : Nat} {p : Parser Expr}
    (sound : ReadsPhrases b depth (level + 1) p) (free : RunsFree most p)
    {ks : List Kind} (short : ks.length ≤ b.maxDepth) {left : Expr} {tokens : List Token}
    (light : weight tokens ≤ most) (before : Phrase depth level ks left (reading tokens))
    {h : weight tokens < bound} : ¬(chain b p level left tokens h).AtLimit := by
  induction size : weight tokens using Nat.strongRecOn generalizing left tokens with
  | ind size' ih =>
    by_cases ahead : Expr.operatorAhead level tokens = true
    · obtain ⟨t, rest, op, rfl, isOp, same⟩ := Expr.exists_of_operatorAhead ahead
      have taken := weight_lt_cons t rest
      rw [Expr.chain_operator isOp same, Step.atLimit_andThen, Step.atLimit_weaken]
      rintro (stopped | ⟨right, behind, _, read, stopped⟩)
      · exact free (by omega) stopped
      · have read := Step.yields_weaken.1 read
        have less := read.choose
        rw [reading_of_kind isOp nofun] at before
        have joined := Phrase.joined same before (sound read).1
        have low : (Expr.binary op left right).height ≤ b.maxDepth := by
          have fits := joined.height_add_le
          omega
        rw [Step.atLimit_andThen] at stopped
        rcases stopped with stopped | ⟨_, _, _, bounded, stopped⟩
        · exact not_atLimit_bounded low stopped
        · obtain ⟨_, rfl, rfl⟩ := Bounds.yields_bounded.1 bounded
          exact ih _ (by omega) (by omega) joined rfl stopped
    · rw [Expr.chain_end (eq_false_of_ne_true ahead)]
      exact Step.not_atLimit_done

/-- A level of operators over few tokens does not come to the limit. -/
theorem binaryLevel_runsFree {level : Nat} (small : level < 5) {p : Parser Expr}
    (sound : ReadsPhrases b depth (level + 1) p) (free : RunsFree most p)
    (room : most ≤ b.maxDepth) : RunsFree most (binaryLevel b p level) := by
  intro tokens light
  rw [binaryLevel, Step.atLimit_andThen]
  rintro (stopped | ⟨left, rest, _, read, stopped⟩)
  · exact free light stopped
  · have less := read.choose
    have short : (reading tokens).length ≤ b.maxDepth := by
      rw [length_reading]
      omega
    exact chain_runsFree sound free short (by omega) (.tighter small (sound read).1) stopped

/-- All levels of operators over few tokens do not come to the limit. -/
theorem levels_runsFree {p : Parser Expr} (sound : ReadsPhrases b depth 5 p)
    (free : RunsFree most p) (room : most ≤ b.maxDepth) : RunsFree most (levels b p) := by
  have powers := binaryLevel_sound (by omega) sound
  have products := binaryLevel_sound (by omega) powers
  have sums := binaryLevel_sound (by omega) products
  have powersFree := binaryLevel_runsFree (by omega) sound free room
  have productsFree := binaryLevel_runsFree (by omega) powers powersFree room
  have sumsFree := binaryLevel_runsFree (by omega) products productsFree room
  exact binaryLevel_runsFree (by omega) sums sumsFree room

section Lists

variable {nested : Parser Expr}

/-- Arguments over few tokens do not come to the limit. -/
theorem arguments_runsFree (free : RunsFree most nested) (name : String) {tokens : List Token}
    (light : weight tokens ≤ most) {h : weight tokens < bound} :
    ¬(arguments b nested name tokens h).AtLimit := by
  induction size : weight tokens using Nat.strongRecOn generalizing tokens with
  | ind size' ih =>
    rw [Expr.arguments_eq, Step.atLimit_andThen, Step.atLimit_weaken]
    rintro (stopped | ⟨arg, rest, _, read, stopped⟩)
    · exact free light stopped
    · have less := (Step.yields_weaken.1 read).choose
      cases rest with
      | nil => exact not_atLimit_complain b _ _ stopped
      | cons t behind =>
        have taken := weight_lt_cons t behind
        simp only at stopped
        split at stopped
        · exact ih _ (by omega) (by omega) rfl (Step.atLimit_map.1 stopped)
        · split at stopped
          · exact Step.not_atLimit_done stopped
          · exact not_atLimit_complain b _ _ stopped

/-- Elements over few tokens do not come to the limit. -/
theorem elements_runsFree (free : RunsFree most nested) {tokens : List Token}
    (light : weight tokens ≤ most) {h : weight tokens < bound} :
    ¬(elements b nested tokens h).AtLimit := by
  induction size : weight tokens using Nat.strongRecOn generalizing tokens with
  | ind size' ih =>
    cases tokens with
    | nil =>
      rw [elements]
      rintro ⟨_, _, stopped⟩
      cases stopped
    | cons t rest =>
      by_cases close : t.kind = .rightBracket
      · rw [elements, if_pos close]
        exact Step.not_atLimit_done
      · rw [Expr.elements_cons close, Step.atLimit_andThen, Step.atLimit_weaken]
        rintro (stopped | ⟨item, behind, _, read, stopped⟩)
        · exact free light stopped
        · have less := (Step.yields_weaken.1 read).choose
          have skipped := Expr.weight_skipComma_le behind
          exact ih _ (by omega) (by omega) rfl (Step.atLimit_map.1 stopped)

/-- The elements of a vector are lower than the vector is long, its bracket included. -/
theorem height_vector_le (sound : ReadsWholes b depth nested) (room : most < b.maxDepth)
    {tokens rest : List Token} (light : weight tokens ≤ most) {h : weight tokens < bound}
    {items : List Expr} (read : (elements b nested tokens h).Yields items rest) :
    (Expr.vector items).height ≤ b.maxDepth := by
  have fits := (elements_sound sound read).height_add_lt
  rw [length_reading, length_reading] at fits
  rw [Expr.height]
  omega

/-- A vector over few tokens does not come to the limit. -/
theorem vectorTail_runsFree (sound : ReadsWholes b depth nested) (free : RunsFree most nested)
    (room : most < b.maxDepth) {tokens : List Token} (light : weight tokens ≤ most)
    {h : weight tokens < bound} : ¬(vectorTail b nested tokens h).AtLimit := by
  rw [vectorTail, Step.atLimit_andThen]
  rintro (stopped | ⟨items, rest, _, read, stopped⟩)
  · exact elements_runsFree free light stopped
  · exact not_atLimit_bounded (height_vector_le sound room light read) stopped

/-- A run of columns over few tokens does not come to the limit. -/
theorem columnRun_runsFree (sound : ReadsWholes b depth nested) (free : RunsFree most nested)
    (room : most < b.maxDepth) {tokens : List Token} (light : weight tokens ≤ most)
    {h : weight tokens < bound} : ¬(columnRun b nested tokens h).AtLimit := by
  induction size : weight tokens using Nat.strongRecOn generalizing tokens with
  | ind size' ih =>
    by_cases opens : tokens.head?.map Token.kind = some .leftBracket
    · obtain ⟨t, rest, rfl, bracket⟩ := Expr.exists_of_head? opens
      have taken := weight_lt_cons t rest
      rw [Expr.columnRun_bracket bracket, Step.atLimit_andThen, Step.atLimit_weaken]
      rintro (stopped | ⟨column, behind, _, read, stopped⟩)
      · exact vectorTail_runsFree sound free room (by omega) stopped
      · have less := (Step.yields_weaken.1 read).choose
        exact ih _ (by omega) (by omega) rfl (Step.atLimit_map.1 stopped)
    · rw [Expr.columnRun_end opens]
      exact Step.not_atLimit_done

/-- A matrix over few tokens does not come to the limit. -/
theorem matrixTail_runsFree (sound : ReadsWholes b depth nested) (free : RunsFree most nested)
    (room : most < b.maxDepth) {tokens : List Token} (light : weight tokens ≤ most)
    {h : weight tokens < bound} : ¬(Expr.matrixTail b nested tokens h).AtLimit := by
  rw [Expr.matrixTail, Step.atLimit_andThen]
  rintro (stopped | ⟨column, rest, _, read, stopped⟩)
  · exact vectorTail_runsFree sound free room light stopped
  · obtain ⟨items, inner, _, rfl⟩ := Expr.yields_vectorTail.1 read
    have first := (elements_sound sound inner).height_add_lt
    rw [length_reading, length_reading] at first
    rw [Step.atLimit_andThen] at stopped
    rcases stopped with stopped | ⟨columns, behind, _, run, stopped⟩
    · exact columnRun_runsFree sound free room (by omega) stopped
    · have others := (columnRun_sound sound run).1.height_add_le
      rw [length_reading, length_reading] at others
      refine not_atLimit_bounded ?_ stopped
      simp only [Expr.height, Expr.heightAll]
      omega

/-- A call over few tokens does not come to the limit. -/
theorem callTail_runsFree (sound : ReadsWholes b depth nested) (free : RunsFree most nested)
    (room : most < b.maxDepth) (name : String) {tokens : List Token}
    (light : weight tokens ≤ most) {h : weight tokens < bound} :
    ¬(Expr.callTail b nested name tokens h).AtLimit := by
  have general : ¬((arguments b nested name tokens h).andThen fun args rest lighter =>
      b.bounded (.call name args) rest lighter).AtLimit := by
    rw [Step.atLimit_andThen]
    rintro (stopped | ⟨args, rest, _, read, stopped⟩)
    · exact arguments_runsFree free name light stopped
    · have fits := (arguments_sound sound read).1.height_add_lt
      rw [length_reading, length_reading] at fits
      refine not_atLimit_bounded ?_ stopped
      rw [Expr.height]
      omega
  cases tokens with
  | nil => exact general
  | cons t rest =>
    rw [Expr.callTail]
    split
    · exact Step.not_atLimit_done
    · exact general

end Lists

/-- Parameters never come to the limit. -/
theorem parameters_runsFree {tokens : List Token} {h : weight tokens < bound} :
    ¬(parameters b tokens h).AtLimit := by
  induction size : weight tokens using Nat.strongRecOn generalizing tokens with
  | ind size' ih =>
    cases tokens with
    | nil =>
      rw [parameters]
      exact not_atLimit_complain b _ _
    | cons t rest =>
      rw [parameters]
      split
      · cases rest with
        | nil => exact Step.not_atLimit_done
        | cons u after =>
          have takenName := weight_lt_cons t (u :: after)
          have takenComma := weight_lt_cons u after
          simp only
          split
          · rw [Step.atLimit_map]
            exact ih _ (by omega) rfl
          · exact Step.not_atLimit_done
      · exact not_atLimit_complain b _ _

/-- A list of parameters never comes to the limit. -/
theorem parameterList_runsFree {tokens : List Token} {h : weight tokens < bound} :
    ¬(parameterList b tokens h).AtLimit := by
  rw [parameterList, Step.atLimit_andThen]
  rintro (stopped | ⟨params, rest, _, _, stopped⟩)
  · split at stopped
    · exact Step.not_atLimit_done stopped
    · exact parameters_runsFree stopped
  · rw [Step.atLimit_andThen] at stopped
    rcases stopped with stopped | ⟨_, _, _, _, stopped⟩
    · exact not_atLimit_expect b _ _ _ _ stopped
    · exact Step.not_atLimit_done stopped

section Operands

variable {nested signed : Parser Expr}

/-- A definition over few tokens does not come to the limit. -/
theorem definitionTail_runsFree (sound : ReadsWholes b depth nested) (free : RunsFree most nested)
    (room : most < b.maxDepth) (name : String) {tokens : List Token}
    (light : weight tokens ≤ most) {h : weight tokens < bound} :
    ¬(Expr.definitionTail b nested name tokens h).AtLimit := by
  rw [Expr.definitionTail, Step.atLimit_andThen]
  rintro (stopped | ⟨params, rest, _, list, stopped⟩)
  · exact parameterList_runsFree stopped
  · have shorter : (reading rest).length < (reading tokens).length := by
      rw [parameterList_sound list, List.length_append, List.length_cons]
      omega
    rw [length_reading, length_reading] at shorter
    rw [Step.atLimit_andThen] at stopped
    rcases stopped with stopped | ⟨_, behind, _, equals, stopped⟩
    · exact not_atLimit_expect b _ _ _ _ stopped
    · obtain ⟨t, rfl, _⟩ := Bounds.yields_expect.1 equals
      have taken := weight_lt_cons t behind
      rw [Step.atLimit_andThen, Step.atLimit_weaken] at stopped
      rcases stopped with stopped | ⟨body, stop, _, read, stopped⟩
      · exact free (by omega) stopped
      · have fits := (sound (Step.yields_weaken.1 read)).1.height_add_le
        rw [length_reading, length_reading] at fits
        refine not_atLimit_bounded ?_ stopped
        rw [Expr.height]
        omega

/-- What a name begins does not come to the limit over few tokens. -/
theorem nameTail_runsFree (sound : ReadsWholes b depth nested) (free : RunsFree most nested)
    (room : most < b.maxDepth) (name : String) {tokens : List Token}
    (light : weight tokens ≤ most) {h : weight tokens < bound} :
    ¬(Expr.nameTail b nested name tokens h).AtLimit := by
  cases tokens with
  | nil => exact Step.not_atLimit_done
  | cons t rest =>
    have taken := weight_lt_cons t rest
    rw [Expr.nameTail]
    split
    · split
      · exact definitionTail_runsFree sound free room name (by omega)
      · exact callTail_runsFree sound free room name (by omega)
    · exact Step.not_atLimit_done

/-- Behind its first token an operand is lighter than the stream, and so is all that is nested. -/
theorem operandWith_runsFree (below : ReadsBelowSign depth signed)
    (sound : ReadsWholes b depth nested) (signedFree : RunsFree most signed)
    (free : RunsFree most nested) (room : most < b.maxDepth) :
    RunsFree (most + 1) (operandWith b signed nested) := by
  intro tokens light
  cases tokens with
  | nil => exact not_atLimit_complain b _ _
  | cons t rest =>
    have taken := weight_lt_cons t rest
    have sign : ∀ sign : Sign, ¬(Expr.signTail b signed sign rest taken).AtLimit := by
      intro sign
      rw [Expr.signTail, Step.atLimit_andThen, Step.atLimit_weaken]
      rintro (stopped | ⟨e, stop, _, read, stopped⟩)
      · exact signedFree (by omega) stopped
      · obtain ⟨_, _, phrase⟩ := below (Step.yields_weaken.1 read)
        have fits := phrase.height_add_le
        rw [length_reading, length_reading] at fits
        refine not_atLimit_bounded ?_ stopped
        rw [Expr.height]
        omega
    unfold operandWith
    simp only
    split
    · exact sign .negative
    · exact sign .positive
    · exact Step.not_atLimit_done
    · exact nameTail_runsFree sound free room _ (by omega)
    · rw [Step.atLimit_andThen, Step.atLimit_weaken]
      rintro (stopped | ⟨e, behind, _, _, stopped⟩)
      · exact free (by omega) stopped
      · exact not_atLimit_expect b _ _ _ _ (Step.atLimit_map.1 stopped)
    · exact matrixTail_runsFree sound free room (by omega)
    · exact not_atLimit_complain b _ _

/-- No operand is stopped that is lighter than the nesting that is still allowed. -/
theorem operand_runsFree {room : Nat} (le : room ≤ b.maxDepth) (positive : 0 < b.maxDepth) :
    RunsFree room (operand b room) := by
  induction room with
  | zero =>
    intro tokens light
    cases tokens with
    | nil => exact not_atLimit_complain b _ _
    | cons t rest =>
      have taken := weight_lt_cons t rest
      omega
  | succ room ih =>
    have free := ih (Nat.le_of_succ_le le)
    have sound := operand_sound positive room
    have below : ReadsBelowSign (room + 1) (operand b room) :=
      fun _ _ _ yielded => ⟨room, rfl, (sound yielded).1⟩
    exact operandWith_runsFree below (levels_sound sound) free
      (levels_runsFree sound free (Nat.le_of_succ_le le)) le

/-- No text is stopped that has fewer tokens than levels of nesting are allowed. -/
theorem expression_runsFree {room : Nat} (le : room < b.maxDepth) :
    RunsFree room (expression b (room + 1)) := by
  have positive : 0 < b.maxDepth := Nat.zero_lt_of_lt le
  have smaller : room ≤ b.maxDepth := Nat.le_of_lt le
  exact levels_runsFree (operand_sound positive room) (operand_runsFree smaller positive) smaller

end Operands

end Reckon.Grammar
