import Reckon.Decimal.Basic
import Reckon.Operator

/-!
# Tokens

The words of an algebraic text, each with its spelling and its byte position. A stream of tokens
ends with the end token; a `*` may be implied between a number and a name.
-/

namespace Reckon

namespace Token

/-- What a token is. -/
inductive Kind where
  | number (value : Decimal)
  | name (text : String)
  | operator (op : Operator)
  | leftParen
  | rightParen
  | comma
  | leftBracket
  | rightBracket
  | finish
deriving DecidableEq, Repr

end Token

/-- A token with its spelling and where it stands. -/
structure Token where
  kind : Token.Kind
  /-- The spelling. -/
  lexeme : String
  /-- The byte position of the spelling in the text. -/
  position : Nat
deriving DecidableEq, Repr

namespace Token

/-- The end token. -/
def finishAt (position : Nat) : Token :=
  ⟨.finish, "", position⟩

/-- The `*` that is implied in front of a name after a number. -/
def impliedTimes (position : Nat) : Token :=
  ⟨.operator .multiply, "*", position⟩

/-- How messages name a token. -/
def describe (t : Token) : String :=
  match t.kind with
  | .finish => "end of input"
  | _ => "'" ++ t.lexeme ++ "'"

/-- Whether the token ends the stream. -/
def isFinish (t : Token) : Bool :=
  t.kind == .finish

/-- Whether the token is a number. -/
def isNumber (t : Token) : Bool :=
  match t.kind with
  | .number _ => true
  | _ => false

/-- Whether the token is a name. -/
def isName (t : Token) : Bool :=
  match t.kind with
  | .name _ => true
  | _ => false

/-- The byte position after the token. -/
def stop (t : Token) : Nat :=
  t.position + t.lexeme.utf8ByteSize

end Token

end Reckon
