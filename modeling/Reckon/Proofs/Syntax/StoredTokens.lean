import Reckon.Expr.Parser

/-!
# A parser over stored tokens

The parser written out once more over a list of tokens that it stores, with the index of the next
one and a count of the open levels. The end token is stored as well, and a `*` that is understood is
put into the list when the number in front of it is taken. Every access that is not checked ends the
parser if it goes outside of the list, and so does every count that would fall below zero. Nothing
is said about why the procedures come to an end: each of them is told how deep its calls may still
nest, the rounds of a loop being such calls, and has no outcome at all if they nest deeper.
-/

namespace Reckon

open Token (Kind)

/-- A list of tokens with a place in it. -/
structure Reader where
  tokens : List Token
  /-- The index of the next token. -/
  current : Nat
  /-- How many levels are open. -/
  depth : Nat
  /-- The greatest height of a tree and depth of nesting. -/
  maxDepth : Nat
deriving DecidableEq

/-- Why a procedure over stored tokens ends without a result. -/
inductive Stop where
  /-- A fault that is reported to the caller. -/
  | fault (fault : Fault)
  /-- A bracket that was just seen is not there any more. -/
  | noBracket (found : String) (position : Nat)
  /-- An access outside of the list, or a count below zero. -/
  | crash
deriving DecidableEq

/-- A procedure over stored tokens. What it changed stays changed when it ends without a result, and
it has no outcome at all if it does not end. -/
abbrev Procedure (α : Type) : Type :=
  ExceptT Stop (StateT Reader Option) α

namespace Reader

/-- The tokens with an end token behind them, unless they have one there. -/
def ended (tokens : List Token) : List Token :=
  match tokens.getLast? with
  | some t => if t.isFinish then tokens else tokens ++ [Token.finishAt t.stop]
  | none => [Token.finishAt 0]

/-- A reader in front of some tokens. -/
def ofTokens (maxDepth : Nat) (tokens : List Token) : Reader :=
  ⟨ended tokens, 0, 0, maxDepth⟩

end Reader

namespace Procedure

variable {α : Type}

/-! ## One token at a time -/

/-- The next token, without a check. -/
def peek : Procedure Token := do
  let r ← get
  match r.tokens[r.current]? with
  | some t => pure t
  | none => throw .crash

/-- Goes on to the next token, but never past an end token. -/
def advance : Procedure Unit := do
  let t ← peek
  if t.isFinish then pure () else modify fun r => { r with current := r.current + 1 }

/-- A fault about the next token, at its position. -/
def complain (problem : String → ParseProblem) : Procedure α := do
  let t ← peek
  throw (.fault (.parse (problem t.describe) t.position))

/-- Takes a token of the given kind. -/
def expect (kind : Kind) (problem : String → ParseProblem) : Procedure Unit := do
  let t ← peek
  if t.kind = kind then advance else complain problem

/-- Takes the opening bracket that was just seen. -/
def takeBracket (kind : Kind) : Procedure Unit := do
  let t ← peek
  if t.kind = kind then advance else throw (.noBracket t.describe t.position)

/-- Takes a comma, if one is next. -/
def skipComma : Procedure Unit := do
  let t ← peek
  if t.kind = .comma then advance else pure ()

/-- Takes an operator of some class, if one is next. -/
def operator? (accept : Operator → Bool) : Procedure (Option Operator) := do
  let t ← peek
  match t.kind with
  | .operator op => if accept op then do advance; pure (some op) else pure none
  | _ => pure none

/-- Puts a `*` in front of the next token, if that is a name. -/
def insertTimes : Procedure Unit := do
  let t ← peek
  if t.isName then do
    let r ← get
    if r.current ≤ r.tokens.length then
      set { r with tokens := r.tokens.insertIdx r.current (Token.impliedTimes t.position) }
    else throw .crash
  else pure ()

/-! ## Levels -/

/-- Opens a level, if the limit allows one more. -/
def enter : Procedure Unit := do
  let r ← get
  if r.maxDepth < r.depth + 1 then throw (.fault (.depthExceeded r.maxDepth))
  else set { r with depth := r.depth + 1 }

/-- Closes a level and keeps an outcome. -/
def leave (outcome : Except Stop α) : StateT Reader Option (Except Stop α) := do
  let r ← get
  match r.depth with
  | 0 => pure (.error .crash)
  | depth + 1 => do
    set { r with depth }
    pure outcome

/-- Closes a level behind a procedure, whatever its outcome. -/
def closing (x : Procedure α) : Procedure α :=
  ExceptT.mk (x.run >>= leave)

/-- A procedure with one more level open. -/
def within (x : Procedure α) : Procedure α := do
  enter
  closing x

/-- A height within the limit. -/
def checkHeight (height : Nat) : Procedure Nat := do
  let r ← get
  if r.maxDepth < height then throw (.fault (.depthExceeded r.maxDepth)) else pure height

/-- A tree within the limit. -/
def bounded (e : Expr) : Procedure Expr := do
  let _ ← checkHeight e.height
  pure e

/-! ## Looking ahead -/

/-- The index of the parenthesis that closes the outermost open one of `count`, in tokens the first
of which has the given index. -/
def closingIndex (index count : Nat) : List Token → Except Stop (Option Nat)
  | [] => .ok none
  | t :: rest =>
    match t.kind with
    | .leftParen => closingIndex (index + 1) (count + 1) rest
    | .rightParen =>
      match count with
      | 0 => .error .crash
      | 1 => .ok (some index)
      | count + 2 => closingIndex (index + 1) (count + 1) rest
    | .finish => .ok none
    | _ => closingIndex (index + 1) count rest

/-- Whether an equals sign stands behind the parenthesis that closes the next one. -/
def isDefinition : Procedure Bool := do
  let r ← get
  match closingIndex r.current 0 (r.tokens.drop r.current) with
  | .error stop => throw stop
  | .ok none => pure false
  | .ok (some close) =>
    match r.tokens[close + 1]? with
    | some t => pure (t.kind == .operator .assign)
    | none => pure false

/-! ## The procedures -/

/-- A call that nests too deep. -/
def unended : Procedure α :=
  ExceptT.lift (StateT.lift none)

/-- Names with commas between them, at least one. -/
def parameters : Nat → Procedure (List String)
  | 0 => unended
  | fuel + 1 => do
    let t ← peek
    match t.kind with
    | .name name => do
      advance
      let u ← peek
      if u.kind = .comma then do
        advance
        let more ← parameters fuel
        pure (name :: more)
      else pure [name]
    | _ => complain .noParameterName

/-- The parameters of a definition and the closing parenthesis. -/
def parameterList (fuel : Nat) : Procedure (List String) := do
  let t ← peek
  let params ← if t.kind = .rightParen then pure [] else parameters fuel
  expect .rightParen .unclosedParameters
  pure params

mutual

/-- An expression, one level further in. -/
def expression : Nat → Procedure Expr
  | 0 => unended
  | fuel + 1 => within (level fuel 1)

/-- Operands of an operator level: four levels of operators, and a sign or a primary below them. -/
def level : Nat → Nat → Procedure Expr
  | 0, _ => unended
  | fuel + 1, n =>
    if n ≤ 4 then do
      let left ← level fuel (n + 1)
      chain fuel n left left.height
    else unary fuel

/-- Operators of a level and operands behind a tree of the given height. -/
def chain : Nat → Nat → Expr → Nat → Procedure Expr
  | 0, _, _, _ => unended
  | fuel + 1, n, left, height => do
    let op? ← operator? fun op => op.precedence == n
    match op? with
    | some op => do
      let right ← level fuel (n + 1)
      let higher ← checkHeight (max height right.height + 1)
      chain fuel n (.binary op left right) higher
    | none => pure left

/-- An operand, one level further in behind a sign. -/
def unary : Nat → Procedure Expr
  | 0 => unended
  | fuel + 1 => do
    let op? ← operator? fun op => op == .add || op == .subtract
    match op? with
    | some op => do
      let operand ← within (unary fuel)
      bounded (.signed (if op = .subtract then .negative else .positive) operand)
    | none => primary fuel

/-- A number, a name with what follows it, or what is in brackets. -/
def primary : Nat → Procedure Expr
  | 0 => unended
  | fuel + 1 => do
    let t ← peek
    match t.kind with
    | .number value => do
      advance
      insertTimes
      pure (.number value)
    | .name name => do
      advance
      afterName fuel name
    | .leftParen => do
      advance
      let e ← expression fuel
      expect .rightParen .unclosedParenthesis
      pure e
    | .leftBracket => matrix fuel
    | _ => complain .unexpected

/-- What follows a name: a definition, a call or nothing. -/
def afterName : Nat → String → Procedure Expr
  | 0, _ => unended
  | fuel + 1, name => do
    let t ← peek
    if t.kind = .leftParen then do
      let defines ← isDefinition
      if defines then definition fuel name else call fuel name
    else pure (.plain name)

/-- A definition behind its name. -/
def definition : Nat → String → Procedure Expr
  | 0, _ => unended
  | fuel + 1, name => do
    takeBracket .leftParen
    let params ← parameterList fuel
    expect (.operator .assign) .noEqualsSign
    let body ← expression fuel
    bounded (.definition name params body)

/-- A call behind its name. -/
def call : Nat → String → Procedure Expr
  | 0, _ => unended
  | fuel + 1, name => do
    takeBracket .leftParen
    let t ← peek
    if t.kind = .rightParen then do
      advance
      pure (.call name [])
    else do
      let args ← arguments fuel name
      bounded (.call name args)

/-- Arguments with commas between them, at least one, and the closing parenthesis. -/
def arguments : Nat → String → Procedure (List Expr)
  | 0, _ => unended
  | fuel + 1, name => do
    let arg ← expression fuel
    let t ← peek
    if t.kind = .comma then do
      advance
      let more ← arguments fuel name
      pure (arg :: more)
    else if t.kind = .rightParen then do
      advance
      pure [arg]
    else complain (.noArgumentSeparator name)

/-- All vectors that follow one another. -/
def matrix : Nat → Procedure Expr
  | 0 => unended
  | fuel + 1 => do
    let found ← columns fuel
    bounded (.matrix found)

/-- The vectors of a matrix. -/
def columns : Nat → Procedure (List Expr)
  | 0 => unended
  | fuel + 1 => do
    let t ← peek
    if t.kind = .leftBracket then do
      let column ← vector fuel
      let more ← columns fuel
      pure (column :: more)
    else pure []

/-- A vector with its brackets. -/
def vector : Nat → Procedure Expr
  | 0 => unended
  | fuel + 1 => do
    takeBracket .leftBracket
    let items ← elements fuel
    bounded (.vector items)

/-- The elements of a vector, each with an optional comma behind it, and the closing bracket. -/
def elements : Nat → Procedure (List Expr)
  | 0 => unended
  | fuel + 1 => do
    let t ← peek
    if t.kind = .rightBracket then do
      advance
      pure []
    else if t.kind = .finish then throw (.fault (.parse .unterminatedVector t.position))
    else do
      let item ← expression fuel
      skipComma
      let more ← elements fuel
      pure (item :: more)

end

end Procedure

end Reckon
