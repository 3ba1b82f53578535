import Reckon.Matrix.Basic
import Reckon.Matrix.Determinant

/-!
# Square matrices, inverses and systems

The algorithms on matrices of any shape. Determinants, triangular forms, inverses and solutions ask
for a square matrix. A matrix of numbers whose determinant counts as zero has no inverse and no
unique solution; the inverse and the solution are read off the reduced form of the matrix beside the
identity or the right side.
-/

namespace Reckon

namespace Grid

variable {n : Nat}

/-- The fault of a grid of numbers whose determinant counts as zero. -/
def refuseSingular (g : Grid n n) : Except Fault Unit := do
  let determinant ← g.determinantTriangular
  if determinant.isZero then .error .singularMatrix else .ok ()

/-- The inverse of a grid of numbers. -/
def invert (g : Grid n n) : Except Fault (Grid n (n + n - n)) :=
  if g.isNumeric then do
    g.refuseSingular
    let reduced ← (g.augment (Grid.identity n)).rowReduce
    .ok (reduced.dropColumns n)
  else .error (.unsupported .inverseOfSymbols)

/-- The solution of a system with the given right side. -/
def solve (g : Grid n n) (right : Grid n 1) : Except Fault (List Value) := do
  if g.isNumeric then g.refuseSingular
  let reduced ← (g.augment right).rowReduce
  .ok ((List.finRange n).map fun i => reduced.entry i (Fin.last n))

end Grid

namespace ValueMatrix

/-- What to do with the grid of a square matrix; any other shape is a fault. -/
def ifSquare {α : Type} (m : ValueMatrix) (problem : Nat → Nat → ShapeProblem)
    (f : Grid m.cols m.cols → Except Fault α) : Except Fault α :=
  if h : m.rows = m.cols then f (h ▸ m.grid) else misshapen (problem m.rows m.cols)

/-- The reduced row echelon form. -/
def rowReduce (m : ValueMatrix) : Except Fault ValueMatrix :=
  m.grid.rowReduce.map m.withGrid

/-- A row echelon form with pivots 1. -/
def echelonForm (m : ValueMatrix) : Except Fault ValueMatrix :=
  m.grid.echelonForm.map m.withGrid

/-- An upper triangular form with the same determinant. -/
def makeTriangular (m : ValueMatrix) : Except Fault ValueMatrix :=
  m.ifSquare .triangularNotSquare fun g =>
    g.makeTriangular.map fun triangular => ofGrid triangular m.cols_pos

/-- The determinant by the triangular form. -/
def determinantTriangular (m : ValueMatrix) : Except Fault Value :=
  m.ifSquare .determinantNotSquare Grid.determinantTriangular

/-- The determinant by expansion. -/
def determinantCofactor (m : ValueMatrix) : Except Fault Value :=
  m.ifSquare .determinantNotSquare Grid.determinantCofactor

/-- The determinant: by the triangular form for numbers, by expansion otherwise. -/
def determinant (m : ValueMatrix) : Except Fault Value :=
  m.ifSquare .determinantNotSquare Grid.determinant

/-- The characteristic polynomial in a symbol. -/
def characteristicPolynomial (m : ValueMatrix) (symbol : String) : Except Fault Value :=
  m.ifSquare .characteristicNotSquare fun g => g.characteristicPolynomial symbol

/-- The inverse. -/
def invert (m : ValueMatrix) : Except Fault ValueMatrix :=
  m.ifSquare .inverseNotSquare fun g =>
    g.invert.map fun inverse => ofGrid inverse (by have := m.cols_pos; omega)

/-- The solution of a system with the given right side. -/
def solve (m : ValueMatrix) (right : List Value) : Except Fault (List Value) :=
  m.ifSquare .systemNotSquare fun g =>
    if h : right.length = m.cols then
      g.solve (gridOfColumns m.cols [right] (by simpa using h))
    else misshapen (.rightSideLength right.length m.cols)

end ValueMatrix

end Reckon
