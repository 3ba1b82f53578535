import Reckon.Matrix.Basic
import Reckon.Session

/-!
# Matrices from text

A matrix literal becomes a matrix whose entries are the rounded values of its elements; each
bracketed vector is one column.
-/

namespace Reckon.Session

/-- The rounded values of the elements of a column. -/
def columnValues (s : Session) : Expr → Except Fault (List Value)
  | .vector items => items.mapM s.evalTree
  | other => .error (.shape (.notAVector other.kind))

/-- The matrix of a tree. -/
def matrixOfTree (s : Session) (e : Expr) : Except Fault ValueMatrix :=
  match e with
  | .matrix columns =>
    match columns.mapM s.columnValues with
    | .error fault => .error fault
    | .ok columns => ValueMatrix.ofColumns columns
  | other => .error (.shape (.notAMatrix other.kind))

/-- The matrix of a text. -/
def matrix (s : Session) (text : String) : Except Fault ValueMatrix × Session :=
  s.withTree text matrixOfTree

end Reckon.Session
