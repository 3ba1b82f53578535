import Reckon.Expr.Printer
import Reckon.Fault
import Reckon.Token.Lexer
import Reckon.Token.Stream

/-!
# Parsing expressions

A parser takes tokens from the front of a stream and answers with a tree and a lighter stream, or
with a fault and the stream where it stands. Four levels of operators lie over the operands, each a
chain associated to the left. Signs and every kind of bracket nest, and `operand` counts the levels
of nesting that are still allowed. A tree higher than the limit is refused as it is built.
-/

namespace Reckon

namespace Expr

open Token

/-- The outcome of reading from a stream: a result and a stream lighter than the bound, or a fault
and the stream where it was met. -/
inductive Step (α : Type) (bound : Nat) where
  | done (value : α) (rest : List Token) (lighter : weight rest < bound)
  | stuck (fault : Fault) (rest : List Token)

namespace Step

/-- The same outcome for another result. -/
def map {α β : Type} {bound : Nat} (f : α → β) : Step α bound → Step β bound
  | done value rest lighter => done (f value) rest lighter
  | stuck fault rest => stuck fault rest

/-- The same outcome under a greater bound. -/
def weaken {α : Type} {bound larger : Nat} (h : bound ≤ larger) : Step α bound → Step α larger
  | done value rest lighter => done value rest (Nat.lt_of_lt_of_le lighter h)
  | stuck fault rest => stuck fault rest

/-- Goes on with the result and the rest of the stream. -/
def andThen {α β : Type} {bound : Nat} (step : Step α bound)
    (next : (value : α) → (rest : List Token) → weight rest < bound → Step β bound) :
    Step β bound :=
  match step with
  | done value rest lighter => next value rest lighter
  | stuck fault rest => stuck fault rest

/-- The plain outcome. -/
def outcome {α : Type} {bound : Nat} : Step α bound → Except Fault α × List Token
  | done value rest _ => (.ok value, rest)
  | stuck fault rest => (.error fault, rest)

end Step

/-- A reader of a result from the front of a stream. -/
abbrev Parser (α : Type) : Type :=
  (tokens : List Token) → Step α (weight tokens)

/-- What a parser has to know beside the tokens. -/
structure Bounds where
  /-- The greatest height of a tree and depth of nesting. -/
  maxDepth : Nat
  /-- The position of the end token. -/
  finish : Nat

namespace Bounds

/-- The fault of nesting too deeply. -/
def tooDeep {α : Type} {bound : Nat} (b : Bounds) (tokens : List Token) : Step α bound :=
  .stuck (.depthExceeded b.maxDepth) tokens

/-- A fault about the next token, at its position. -/
def complain {α : Type} {bound : Nat} (b : Bounds) (problem : String → ParseProblem)
    (tokens : List Token) : Step α bound :=
  .stuck (.parse (problem (next b.finish tokens).describe) (next b.finish tokens).position) tokens

/-- A tree, if it is not too high. -/
def bounded {bound : Nat} (b : Bounds) (e : Expr) (rest : List Token)
    (h : weight rest < bound) : Step Expr bound :=
  if b.maxDepth < e.height then b.tooDeep rest else .done e rest h

/-- Takes a token of the given kind. -/
def expect {bound : Nat} (b : Bounds) (kind : Token.Kind) (problem : String → ParseProblem)
    (tokens : List Token) (h : weight tokens < bound) : Step Unit bound :=
  match tokens with
  | [] => b.complain problem []
  | t :: rest =>
    if t.kind = kind then .done () rest (Nat.lt_trans (weight_lt_cons t rest) h)
    else b.complain problem (t :: rest)

end Bounds

/-- The operands and operators of one level behind the first operand, associated to the left. -/
def chain (b : Bounds) (operand : Parser Expr) (level : Nat) {bound : Nat} (left : Expr)
    (tokens : List Token) (h : weight tokens < bound) : Step Expr bound :=
  match tokens with
  | [] => .done left [] h
  | t :: rest =>
    match t.kind with
    | .operator op =>
      if op.precedence = level then
        match operand rest with
        | .stuck fault stop => .stuck fault stop
        | .done right behind lighter =>
          if b.maxDepth < (Expr.binary op left right).height then b.tooDeep behind
          else
            chain b operand level (.binary op left right) behind
              (Nat.lt_trans lighter (Nat.lt_trans (weight_lt_cons t rest) h))
      else .done left (t :: rest) h
    | _ => .done left (t :: rest) h
termination_by weight tokens
decreasing_by exact Nat.lt_trans lighter (weight_lt_cons t rest)

/-- One level of operators over the given operands. -/
def binaryLevel (b : Bounds) (operand : Parser Expr) (level : Nat) : Parser Expr := fun tokens =>
  (operand tokens).andThen fun left rest lighter => chain b operand level left rest lighter

/-- All four levels of operators over the given operands, comparisons outermost. -/
def levels (b : Bounds) (operand : Parser Expr) : Parser Expr :=
  binaryLevel b (binaryLevel b (binaryLevel b (binaryLevel b operand 4) 3) 2) 1

/-- What stands behind the parenthesis that closes the one just opened, with `inner` more of them
open. -/
def behindClosing? (inner : Nat) : List Token → Option (List Token)
  | [] => none
  | t :: rest =>
    match t.kind with
    | .leftParen => behindClosing? (inner + 1) rest
    | .rightParen =>
      match inner with
      | 0 => some rest
      | inner + 1 => behindClosing? inner rest
    | _ => behindClosing? inner rest

/-- Whether a name and the parenthesis just opened behind it begin a definition: an equals sign
stands right behind the closing parenthesis. -/
def beginsDefinition (tokens : List Token) : Bool :=
  match behindClosing? 0 tokens with
  | some (t :: _) => t.kind == .operator .assign
  | _ => false

/-- Names with commas between them, at least one. -/
def parameters (b : Bounds) {bound : Nat} (tokens : List Token) (h : weight tokens < bound) :
    Step (List String) bound :=
  match tokens with
  | [] => b.complain .noParameterName []
  | t :: rest =>
    match t.kind with
    | .name name =>
      match rest with
      | [] => .done [name] [] (Nat.lt_trans (weight_lt_cons t []) h)
      | u :: after =>
        if u.kind = .comma then
          (parameters b after (Nat.lt_trans (weight_lt_cons u after)
            (Nat.lt_trans (weight_lt_cons t (u :: after)) h))).map (name :: ·)
        else .done [name] (u :: after) (Nat.lt_trans (weight_lt_cons t (u :: after)) h)
    | _ => b.complain .noParameterName (t :: rest)

/-- The parameters of a definition up to the closing parenthesis, possibly none. -/
def parameterList (b : Bounds) {bound : Nat} (tokens : List Token) (h : weight tokens < bound) :
    Step (List String) bound :=
  let names : Step (List String) bound :=
    if (next b.finish tokens).kind = .rightParen then .done [] tokens h else parameters b tokens h
  names.andThen fun params rest lighter =>
    (b.expect .rightParen .unclosedParameters rest lighter).andThen fun _ behind lighter =>
      .done params behind lighter

/-- A definition behind its name and opening parenthesis. -/
def definitionTail (b : Bounds) (nested : Parser Expr) (name : String) {bound : Nat}
    (tokens : List Token) (h : weight tokens < bound) : Step Expr bound :=
  (parameterList b tokens h).andThen fun params rest lighter =>
    (b.expect (.operator .assign) .noEqualsSign rest lighter).andThen fun _ behind lighter =>
      ((nested behind).weaken (Nat.le_of_lt lighter)).andThen fun body rest lighter =>
        b.bounded (.definition name params body) rest lighter

/-- Arguments with commas between them, at least one, and the closing parenthesis. -/
def arguments (b : Bounds) (nested : Parser Expr) (name : String) {bound : Nat}
    (tokens : List Token) (h : weight tokens < bound) : Step (List Expr) bound :=
  match nested tokens with
  | .stuck fault stop => .stuck fault stop
  | .done arg rest lighter =>
    match rest with
    | [] => b.complain (.noArgumentSeparator name) []
    | t :: behind =>
      if t.kind = .comma then
        (arguments b nested name behind (Nat.lt_trans (weight_lt_cons t behind)
          (Nat.lt_trans lighter h))).map (arg :: ·)
      else if t.kind = .rightParen then
        .done [arg] behind (Nat.lt_trans (weight_lt_cons t behind) (Nat.lt_trans lighter h))
      else b.complain (.noArgumentSeparator name) (t :: behind)
termination_by weight tokens
decreasing_by exact Nat.lt_trans (weight_lt_cons t behind) lighter

/-- A call behind its name and opening parenthesis. -/
def callTail (b : Bounds) (nested : Parser Expr) (name : String) {bound : Nat}
    (tokens : List Token) (h : weight tokens < bound) : Step Expr bound :=
  match tokens with
  | [] => (arguments b nested name [] h).andThen fun args rest lighter =>
      b.bounded (.call name args) rest lighter
  | t :: rest =>
    if t.kind = .rightParen then
      .done (.call name []) rest (Nat.lt_trans (weight_lt_cons t rest) h)
    else
      (arguments b nested name (t :: rest) h).andThen fun args rest lighter =>
        b.bounded (.call name args) rest lighter

/-- The stream behind a comma, if one is next. -/
def skipComma : List Token → List Token
  | [] => []
  | t :: rest => if t.kind = .comma then rest else t :: rest

/-- Skipping a comma makes no stream heavier. -/
theorem weight_skipComma_le (tokens : List Token) : weight (skipComma tokens) ≤ weight tokens := by
  cases tokens with
  | nil => exact Nat.le_refl _
  | cons t rest =>
    simp only [skipComma]
    split
    · exact Nat.le_of_lt (weight_lt_cons t rest)
    · exact Nat.le_refl _

/-- The elements of a vector, each with an optional comma behind it, and the closing bracket. -/
def elements (b : Bounds) (nested : Parser Expr) {bound : Nat} (tokens : List Token)
    (h : weight tokens < bound) : Step (List Expr) bound :=
  match tokens with
  | [] => .stuck (.parse .unterminatedVector b.finish) []
  | t :: rest =>
    if t.kind = .rightBracket then .done [] rest (Nat.lt_trans (weight_lt_cons t rest) h)
    else
      match nested (t :: rest) with
      | .stuck fault stop => .stuck fault stop
      | .done element behind lighter =>
        (elements b nested (skipComma behind)
          (Nat.lt_of_le_of_lt (weight_skipComma_le behind) (Nat.lt_trans lighter h))).map
            (element :: ·)
termination_by weight tokens
decreasing_by exact Nat.lt_of_le_of_lt (weight_skipComma_le behind) lighter

/-- A vector behind its opening bracket. -/
def vectorTail (b : Bounds) (nested : Parser Expr) {bound : Nat} (tokens : List Token)
    (h : weight tokens < bound) : Step Expr bound :=
  (elements b nested tokens h).andThen fun items rest lighter =>
    b.bounded (.vector items) rest lighter

/-- All vectors that follow one another, possibly none. -/
def columnRun (b : Bounds) (nested : Parser Expr) {bound : Nat} (tokens : List Token)
    (h : weight tokens < bound) : Step (List Expr) bound :=
  match tokens with
  | [] => .done [] [] h
  | t :: rest =>
    if t.kind = .leftBracket then
      match vectorTail b nested rest (weight_lt_cons t rest) with
      | .stuck fault stop => .stuck fault stop
      | .done column behind lighter =>
        (columnRun b nested behind (Nat.lt_trans lighter h)).map (column :: ·)
    else .done [] (t :: rest) h
termination_by weight tokens
decreasing_by exact lighter

/-- A matrix behind its first opening bracket. -/
def matrixTail (b : Bounds) (nested : Parser Expr) {bound : Nat} (tokens : List Token)
    (h : weight tokens < bound) : Step Expr bound :=
  (vectorTail b nested tokens h).andThen fun column rest lighter =>
    (columnRun b nested rest lighter).andThen fun columns behind lighter =>
      b.bounded (.matrix (column :: columns)) behind lighter

/-- What follows a name: a definition, a call or nothing. -/
def nameTail (b : Bounds) (nested : Parser Expr) (name : String) {bound : Nat}
    (tokens : List Token) (h : weight tokens < bound) : Step Expr bound :=
  match tokens with
  | [] => .done (.plain name) [] h
  | t :: rest =>
    if t.kind = .leftParen then
      if beginsDefinition rest then
        definitionTail b nested name rest (Nat.lt_trans (weight_lt_cons t rest) h)
      else callTail b nested name rest (Nat.lt_trans (weight_lt_cons t rest) h)
    else .done (.plain name) (t :: rest) h

/-- A signed operand behind its sign. -/
def signTail (b : Bounds) (signed : Parser Expr) (sign : Sign) {bound : Nat}
    (tokens : List Token) (h : weight tokens < bound) : Step Expr bound :=
  ((signed tokens).weaken (Nat.le_of_lt h)).andThen fun e rest lighter =>
    b.bounded (.signed sign e) rest lighter

/-- An operand: signed, or a number, a name with what follows it, or a bracketed expression. The
parser behind a sign and the one inside brackets are given. -/
def operandWith (b : Bounds) (signed nested : Parser Expr) : Parser Expr := fun tokens =>
  match tokens with
  | [] => b.complain .unexpected []
  | t :: rest =>
    have lighter : weight rest < weight (t :: rest) := weight_lt_cons t rest
    match h : t.kind with
    | .operator .subtract => signTail b signed .negative rest lighter
    | .operator .add => signTail b signed .positive rest lighter
    | .number value =>
      .done (.number value) (withImpliedTimes rest)
        (weight_withImpliedTimes_lt (by simp only [isNumber, h]) rest)
    | .name name => nameTail b nested name rest lighter
    | .leftParen =>
      ((nested rest).weaken (Nat.le_of_lt lighter)).andThen fun e behind lighter =>
        (b.expect .rightParen .unclosedParenthesis behind lighter).map fun _ => e
    | .leftBracket => matrixTail b nested rest lighter
    | _ => b.complain .unexpected (t :: rest)

/-- An operand, with the given number of levels of nesting still allowed below it. -/
def operand (b : Bounds) : Nat → Parser Expr
  | 0, tokens => operandWith b (fun rest => b.tooDeep rest) (fun rest => b.tooDeep rest) tokens
  | room + 1, tokens =>
    operandWith b (fun rest => operand b room rest)
      (fun rest => levels b (fun inner => operand b room inner) rest) tokens

/-- An expression, with the given number of levels of nesting still allowed, its own included. -/
def expression (b : Bounds) : Nat → Parser Expr
  | 0, tokens => b.tooDeep tokens
  | room + 1, tokens => levels b (fun inner => operand b room inner) tokens

end Expr

namespace Token.Cursor

/-- Reads one expression from a cursor. After a fault the cursor stays where the fault was met. -/
def expression (maxDepth : Nat) (c : Cursor) : Except Fault Expr × Cursor :=
  let outcome := (Expr.expression ⟨maxDepth, c.finish⟩ maxDepth c.ahead).outcome
  (outcome.1, { c with ahead := outcome.2 })

/-- Nothing, if nothing is ahead of the cursor. -/
def expectEnd (c : Cursor) : Except Fault Unit :=
  match c.ahead with
  | [] => .ok ()
  | t :: _ => .error (.parse (.unexpected t.describe) t.position)

end Token.Cursor

namespace Expr

/-- The tree of some tokens, all of which it takes. -/
def ofTokens (maxDepth : Nat) (tokens : List Token) : Except Fault Expr :=
  let read := (Token.Cursor.ofTokens tokens).expression maxDepth
  match read.1 with
  | .error fault => .error fault
  | .ok e =>
    match read.2.expectEnd with
    | .error fault => .error fault
    | .ok () => .ok e

/-- The tree of a text. -/
def parse (maxDepth : Nat) (text : String) : Except Fault Expr :=
  match Token.tokenize text with
  | .error fault => .error fault
  | .ok tokens => ofTokens maxDepth tokens

end Expr

end Reckon
