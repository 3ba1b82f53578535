import Reckon.Matrix.Product
import Reckon.Matrix.RowOperations

/-!
# Matrices

A matrix is a grid of any shape with at least one column; its columns may be empty. Rows and columns
are counted from zero, and an index outside the shape is a fault. An operation that changes rows
answers with the matrix after it, also when it fails on the way.
-/

namespace Reckon

/-- A grid with its shape. -/
structure ValueMatrix where
  rows : Nat
  cols : Nat
  /-- The entries. -/
  grid : Grid rows cols
  /-- There is a column, empty though it may be. -/
  cols_pos : 0 < cols
deriving DecidableEq

namespace ValueMatrix

/-- The matrix of a grid with at least one column. -/
def ofGrid {rows cols : Nat} (grid : Grid rows cols) (h : 0 < cols) : ValueMatrix :=
  ⟨rows, cols, grid, h⟩

/-- The fault of a shape. -/
def misshapen {α : Type} (problem : ShapeProblem) : Except Fault α :=
  .error (.shape problem)

/-- Columns of one length as a grid. -/
def gridOfColumns (rows : Nat) (columns : List (List Value))
    (h : ∀ column ∈ columns, column.length = rows) : Grid rows columns.length :=
  ⟨⟨(columns.attach.map fun column =>
      (⟨column.1.toArray, by rw [List.size_toArray, h column.1 column.2]⟩ :
        Vector Value rows)).toArray, by simp⟩⟩

/-- The index and length of the first column that has not the given length. -/
def unevenColumn? (rows : Nat) (columns : List (List Value)) : Option (Nat × Nat) :=
  (columns.zipIdx.find? fun column => column.1.length != rows).map fun column =>
    (column.2, column.1.length)

/-- Without an uneven column all columns have the same length. -/
theorem length_of_unevenColumn?_eq_none {rows : Nat} {columns : List (List Value)}
    (h : unevenColumn? rows columns = none) : ∀ column ∈ columns, column.length = rows := by
  intro column member
  rw [unevenColumn?, Option.map_eq_none_iff, List.find?_eq_none] at h
  obtain ⟨i, hi, rfl⟩ := List.getElem_of_mem member
  simpa using h (columns[i], i) (List.mk_mem_zipIdx_iff_getElem?.2 (List.getElem?_eq_getElem hi))

/-- The matrix with the given columns, at least one and all of one length. -/
def ofColumns (columns : List (List Value)) : Except Fault ValueMatrix :=
  match columns with
  | [] => misshapen .noColumns
  | first :: rest =>
    match h : unevenColumn? first.length (first :: rest) with
    | some (index, found) => misshapen (.unevenColumn index found first.length)
    | none =>
      .ok (ofGrid (gridOfColumns first.length (first :: rest) (length_of_unevenColumn?_eq_none h))
        (Nat.succ_pos _))

/-- The lists of first items, second items and so on of some lists, `width` of them. -/
def crossLists (width : Nat) (lists : List (List Value)) : List (List Value) :=
  (List.range width).map fun i => lists.filterMap fun list => list[i]?

/-- The matrix with the given rows, all of one length. -/
def ofRows (rows : List (List Value)) : Except Fault ValueMatrix :=
  match rows with
  | [] => misshapen .noRows
  | first :: rest =>
    if (first :: rest).all fun row => row.length == first.length then
      ofColumns (crossLists first.length (first :: rest))
    else misshapen .unevenRows

/-- The matrix of zeros; at least one column is kept. -/
def zeros (rows cols : Nat) : ValueMatrix :=
  ofGrid (Grid.zeros rows (max 1 cols)) (Nat.le_max_left _ _)

/-- The matrix with ones on its diagonal; that of size zero keeps an empty column. -/
def identity (size : Nat) : ValueMatrix :=
  if h : 0 < size then ofGrid (Grid.identity size) h else zeros 0 1

/-- Whether there are as many rows as columns. -/
def isSquare (m : ValueMatrix) : Bool :=
  m.rows == m.cols

/-- Whether every entry is a number. -/
def isNumeric (m : ValueMatrix) : Bool :=
  m.grid.isNumeric

/-- Whether two matrices are equal, numbers compared by value. -/
def same (m n : ValueMatrix) : Bool :=
  if h : m.rows = n.rows ∧ m.cols = n.cols then (m.grid.cast h.1 h.2).same n.grid else false

/-- What to do at a place in the matrix, if it is within the shape. -/
def atPlace {α : Type} (m : ValueMatrix) (row col : Nat)
    (f : Fin m.rows → Fin m.cols → Except Fault α) : Except Fault α :=
  if h : row < m.rows ∧ col < m.cols then f ⟨row, h.1⟩ ⟨col, h.2⟩
  else misshapen (.entryOutside row col m.rows m.cols)

/-- The entry at a place. -/
def get (m : ValueMatrix) (row col : Nat) : Except Fault Value :=
  m.atPlace row col fun i j => .ok (m.grid.entry i j)

/-- The entries of a row. -/
def row (m : ValueMatrix) (row : Nat) : Except Fault (List Value) :=
  if h : row < m.rows then .ok (m.grid.row ⟨row, h⟩)
  else misshapen (.rowOutside row m.rows m.cols)

/-- The entries of a column. -/
def column (m : ValueMatrix) (col : Nat) : Except Fault (List Value) :=
  match m.grid.columnLists[col]? with
  | some column => .ok column
  | none => misshapen (.columnOutside col m.rows m.cols)

/-- A matrix after an operation, with the fault if it failed. -/
abbrev Changed := ValueMatrix × Option Fault

/-- The matrix with another grid of its shape. -/
def withGrid (m : ValueMatrix) (grid : Grid m.rows m.cols) : ValueMatrix :=
  { m with grid }

/-- What to do with two rows, if both are within the shape; the fault names the later one. -/
def atRows (m : ValueMatrix) (a b : Nat)
    (f : Fin m.rows → Fin m.rows → Grid m.rows m.cols × Option Fault) : Changed :=
  if h : a < m.rows ∧ b < m.rows then
    let changed := f ⟨a, h.1⟩ ⟨b, h.2⟩
    (m.withGrid changed.1, changed.2)
  else (m, some (.shape (.entryOutside (max a b) 0 m.rows m.cols)))

/-- Changes the entry at a place. -/
def set (m : ValueMatrix) (row col : Nat) (value : Value) : Changed :=
  if h : row < m.rows ∧ col < m.cols then
    (m.withGrid (m.grid.set ⟨row, h.1⟩ ⟨col, h.2⟩ value), none)
  else (m, some (.shape (.entryOutside row col m.rows m.cols)))

/-- Exchanges two rows. -/
def swapRows (m : ValueMatrix) (a b : Nat) : Changed :=
  m.atRows a b fun i j => (m.grid.swapRows i j, none)

/-- Multiplies a row by a factor. -/
def scaleRow (m : ValueMatrix) (row : Nat) (factor : Value) : Changed :=
  m.atRows row row fun i _ => m.grid.scaleRow i factor

/-- Adds a multiple of one row to another one. -/
def addScaledRow (m : ValueMatrix) (target source : Nat) (factor : Value) : Changed :=
  m.atRows target source fun i j => m.grid.addScaledRow i j factor

/-- Rounds every number to the places that are shown. -/
def prettify (m : ValueMatrix) : ValueMatrix :=
  m.withGrid m.grid.prettify

/-- The matrix followed by the columns of another one with as many rows. -/
def augment (m other : ValueMatrix) : Except Fault ValueMatrix :=
  if h : other.rows = m.rows then
    .ok (ofGrid (m.grid.augment (other.grid.cast h rfl)) (Nat.add_pos_left m.cols_pos _))
  else misshapen (.unequalRows m.rows other.rows)

/-- The columns from an index on, at least one. -/
def columnsFrom (m : ValueMatrix) (start : Nat) : Except Fault ValueMatrix :=
  if h : start < m.cols then .ok (ofGrid (m.grid.dropColumns start) (Nat.sub_pos_of_lt h))
  else misshapen (.noColumnsLeft start m.cols)

/-- The matrix with rows and columns exchanged; one without rows stays as it is. -/
def transpose (m : ValueMatrix) : ValueMatrix :=
  if h : 0 < m.rows then ofGrid m.grid.transpose h else m

/-- The product of two matrices whose inner sizes agree. -/
def multiply (m other : ValueMatrix) : Except Fault ValueMatrix :=
  if h : other.rows = m.cols then
    (m.grid.multiply (other.grid.cast h rfl)).map fun product => ofGrid product other.cols_pos
  else misshapen (.unequalInner m.rows m.cols other.rows other.cols)

/-- The matrix without a row, if it has that row. -/
def removeRow (m : ValueMatrix) (row : Nat) : ValueMatrix :=
  match m with
  | ⟨0, cols, grid, h⟩ => ⟨0, cols, grid, h⟩
  | ⟨rows + 1, cols, grid, h⟩ =>
    if inside : row < rows + 1 then ofGrid (grid.removeRow ⟨row, inside⟩) h
    else ⟨rows + 1, cols, grid, h⟩

/-- The matrix without a row and a column, as far as it has them. Without a column left it is the
empty matrix. -/
def minor (m : ValueMatrix) (row col : Nat) : ValueMatrix :=
  match m.removeRow row with
  | ⟨rows, 0, grid, h⟩ => ⟨rows, 0, grid, h⟩
  | ⟨rows, cols + 1, grid, h⟩ =>
    if inside : col < cols + 1 then
      if left : 0 < cols then ofGrid (grid.removeColumn ⟨col, inside⟩) left else zeros 0 0
    else ⟨rows, cols + 1, grid, h⟩

/-- The text of a matrix, one bracketed row a line. -/
def render (m : ValueMatrix) : String :=
  "\n".intercalate ((List.finRange m.rows).map fun i =>
    "[" ++ " ".intercalate ((m.grid.row i).map Value.render) ++ "]")

end ValueMatrix

end Reckon
