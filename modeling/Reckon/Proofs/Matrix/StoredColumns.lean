import Reckon.Matrix.Square

/-!
# Matrices as stored columns

A matrix is stored as a list of columns, and nothing in the list says that they are of one length. The
operations are written out once more on lists of columns, check by check and access by access: an
access that is not checked ends the operation if it goes outside of what is stored. Where a change
fails on the way, what it changed before stays changed.
-/

namespace Reckon

/-! ## Accesses -/

/-- Why an operation on stored columns ends without a result. -/
inductive Mishap where
  /-- An access without a check went outside of what is stored. -/
  | outside
  /-- A fault that is reported to the caller. -/
  | fault (fault : Fault)
deriving DecidableEq, Repr

/-- The outcome of an operation in which accesses may go outside. -/
abbrev Checked (α : Type) : Type :=
  Except Mishap α

/-- The outcome of a computation that accesses nothing. -/
def reported {α : Type} (x : Except Fault α) : Checked α :=
  x.mapError .fault

/-- The fault of a shape, reported. -/
def refuse {α : Type} (problem : ShapeProblem) : Checked α :=
  .error (.fault (.shape problem))

section

variable {α : Type}

/-- The item at an index, without a check. -/
def itemAt (xs : List α) (i : Nat) : Checked α :=
  match xs[i]? with
  | some x => .ok x
  | none => .error .outside

/-- The list with the item at an index replaced, without a check. -/
def setItem (xs : List α) (i : Nat) (x : α) : Checked (List α) :=
  if i < xs.length then .ok (xs.set i x) else .error .outside

/-- The list with two items exchanged, without a check. -/
def swapItems (xs : List α) (a b : Nat) : Checked (List α) := do
  let x ← itemAt xs a
  let y ← itemAt xs b
  setItem (← setItem xs a y) b x

/-- The items from an index on, without a check. -/
def dropItems (xs : List α) (start : Nat) : Checked (List α) :=
  if start ≤ xs.length then .ok (xs.drop start) else .error .outside

end

/-! ## Columns -/

/-- Columns from left to right, each from top to bottom, of any lengths. -/
structure Columns where
  lists : List (List Value)
deriving DecidableEq

namespace Columns

/-- The length of the first column. -/
def rows (m : Columns) : Nat :=
  (m.lists.head?.map List.length).getD 0

/-- The number of columns. -/
def cols (m : Columns) : Nat :=
  m.lists.length

/-- Whether there are as many rows as columns. -/
def isSquare (m : Columns) : Bool :=
  m.rows == m.cols

/-- Whether every entry is a number. -/
def isNumeric (m : Columns) : Bool :=
  m.lists.all fun column => column.all Value.isNumeric

/-- The entry at a place, without a check. -/
def entry (m : Columns) (row col : Nat) : Checked Value := do
  itemAt (← itemAt m.lists col) row

/-- Changes the entry at a place, without a check. -/
def setEntry (m : Columns) (row col : Nat) (value : Value) : Checked Columns := do
  let column ← setItem (← itemAt m.lists col) row value
  .ok ⟨← setItem m.lists col column⟩

/-- Refuses a place that is outside the shape, by the length of the first column. -/
def checkBounds (m : Columns) (row col : Nat) : Checked Unit :=
  if m.rows ≤ row ∨ m.cols ≤ col then refuse (.entryOutside row col m.rows m.cols) else .ok ()

/-- The given columns, at least one and all of one length. -/
def ofColumns (columns : List (List Value)) : Checked Columns :=
  match columns with
  | [] => refuse .noColumns
  | first :: rest =>
    match ValueMatrix.unevenColumn? first.length (first :: rest) with
    | some (index, found) => refuse (.unevenColumn index found first.length)
    | none => .ok ⟨first :: rest⟩

/-- The columns of the given rows, all of one length. -/
def ofRows (rows : List (List Value)) : Checked Columns :=
  match rows with
  | [] => refuse .noRows
  | first :: rest =>
    if (first :: rest).any fun row => row.length != first.length then refuse .unevenRows
    else do
      ofColumns (← (List.range first.length).mapM fun col =>
        (first :: rest).mapM fun row => itemAt row col)

/-- Columns of zeros, at least one. -/
def zeros (rows cols : Nat) : Columns :=
  ⟨List.replicate (max 1 cols) (List.replicate rows .zero)⟩

/-- Ones written on the diagonal of zeros. -/
def identity (size : Nat) : Checked Columns :=
  (List.range size).foldlM (fun m i => m.setEntry i i .one) (zeros size (max 1 size))

/-- The entry at a place. -/
def get (m : Columns) (row col : Nat) : Checked Value := do
  m.checkBounds row col
  m.entry row col

/-- The entries of a row. -/
def row (m : Columns) (row : Nat) : Checked (List Value) :=
  if m.rows ≤ row then refuse (.rowOutside row m.rows m.cols)
  else m.lists.mapM fun column => itemAt column row

/-- The entries of a column. -/
def column (m : Columns) (col : Nat) : Checked (List Value) :=
  match m.lists[col]? with
  | some column => .ok column
  | none => refuse (.columnOutside col m.rows m.cols)

/-! ## Changes in place -/

/-- Columns after an operation, with the mishap if it failed. -/
abbrev Changed : Type :=
  Columns × Option Mishap

/-- Changes the entry at a place. -/
def set (m : Columns) (row col : Nat) (value : Value) : Changed :=
  let changed := do
    m.checkBounds row col
    m.setEntry row col value
  match changed with
  | .ok changed => (changed, none)
  | .error mishap => (m, some mishap)

/-- Changes the columns from the left until one cannot be changed, if they have the row. -/
def changeColumns (m : Columns) (row : Nat) (f : List Value → Checked (List Value)) : Changed :=
  match m.checkBounds row 0 with
  | .error mishap => (m, some mishap)
  | .ok () =>
    let changed := changeInTurn f m.lists
    (⟨changed.1⟩, changed.2)

/-- Exchanges two rows. -/
def swapRows (m : Columns) (a b : Nat) : Changed :=
  m.changeColumns (max a b) fun column => if a = b then .ok column else swapItems column a b

/-- Multiplies a row by a factor. -/
def scaleRow (m : Columns) (row : Nat) (factor : Value) : Changed :=
  m.changeColumns row fun column => do
    let scaled ← reported ((← itemAt column row).mul factor)
    setItem column row scaled

/-- Adds a multiple of one row to another one. -/
def addScaledRow (m : Columns) (target source : Nat) (factor : Value) : Changed :=
  m.changeColumns (max target source) fun column => do
    let scaled ← reported ((← itemAt column source).mul factor)
    let sum ← reported ((← itemAt column target).add scaled)
    setItem column target sum

/-- Rounds every number to the places that are shown. -/
def prettify (m : Columns) : Columns :=
  ⟨m.lists.map fun column => column.map (Value.rounded Grid.displayPlaces)⟩

/-- The columns after an operation that went through, or its mishap. -/
def finished (changed : Changed) : Checked Columns :=
  match changed.2 with
  | some mishap => .error mishap
  | none => .ok changed.1

/-! ## New columns from old ones -/

/-- The columns followed by those of another matrix with as many rows. -/
def augment (m other : Columns) : Checked Columns :=
  if m.rows = other.rows then .ok ⟨m.lists ++ other.lists⟩
  else refuse (.unequalRows m.rows other.rows)

/-- The columns from an index on, at least one. -/
def columnsFrom (m : Columns) (start : Nat) : Checked Columns :=
  if m.cols ≤ start then refuse (.noColumnsLeft start m.cols)
  else do .ok ⟨← dropItems m.lists start⟩

/-- The rows as columns; without rows, empty columns. -/
def transpose (m : Columns) : Checked Columns := do
  let columns ← (List.range m.rows).mapM fun row => m.lists.mapM fun column => itemAt column row
  .ok (if columns.isEmpty then zeros 0 m.cols else ⟨columns⟩)

/-- The sum of the products along a row, from the left, after the terms before them. The values come
with their indices. -/
def sumProducts (m : Columns) (row : Nat) (total : Option Value) :
    List (Value × Nat) → Checked Value
  | [] => .ok (total.getD .zero)
  | (value, k) :: values => do
    let product ← reported ((← m.entry row k).mul value)
    let sum ← match total with
      | none => .ok product
      | some total => reported (total.add product)
    m.sumProducts row (some sum) values

/-- The product of two matrices whose inner sizes agree. -/
def multiply (m other : Columns) : Checked Columns :=
  if m.cols = other.rows then do
    ofColumns (← other.lists.mapM fun column =>
      (List.range m.rows).mapM fun row => m.sumProducts row none column.zipIdx)
  else refuse (.unequalInner m.rows m.cols other.rows other.cols)

/-- The columns without a row and a column, as far as they have them. -/
def minor (m : Columns) (row col : Nat) : Columns :=
  match (m.lists.eraseIdx col).map fun column => column.eraseIdx row with
  | [] => zeros 0 0
  | columns =>
    -- What has no shape counts as having no columns.
    match ofColumns columns with
    | .ok minor => minor
    | .error _ => zeros 0 0

/-! ## Elimination -/

/-- The first row from `start` on whose entry in the column does not count as zero. -/
def findPivot? (m : Columns) (col start : Nat) : Checked (Option Nat) :=
  (List.range' start (m.rows - start)).findM? fun row => do
    .ok !(← m.entry row col).isZero

/-- Brings a pivot into the row and makes it one; nothing if the column has none from there on. -/
def normalizePivot (m : Columns) (row col : Nat) : Checked (Option Columns) := do
  match ← m.findPivot? col row with
  | none => .ok none
  | some pivot =>
    let m ← finished (m.swapRows row pivot)
    let reciprocal ← reported (Value.one.div (← m.entry row col))
    let m ← finished (m.scaleRow row reciprocal)
    let m ← finished (m.set row col .one)
    .ok (some m)

/-- Takes the multiple of the pivot's row from another row that clears the pivot's column. -/
def clearEntry (pivot col : Nat) (m : Columns) (row : Nat) : Checked Columns :=
  if row = pivot then .ok m
  else do
    let factor ← m.entry row col
    if factor.isZero then .ok m
    else
      let m ← finished (m.addScaledRow row pivot factor.negate)
      finished (m.set row col .zero)

/-- Goes through columns with a lead row; `rows` is the number of rows at the start. -/
def reduceColumns (below : Bool) (rows : Nat) : List Nat → (lead : Nat) → Columns → Checked Columns
  | [], _, m => .ok m
  | col :: columns, lead, m =>
    if rows ≤ lead then .ok m
    else do
      match ← m.normalizePivot lead col with
      | none => reduceColumns below rows columns lead m
      | some m =>
        let start := if below then lead + 1 else 0
        let m ← (List.range' start (rows - start)).foldlM (clearEntry lead col) m
        reduceColumns below rows columns (lead + 1) m

/-- The reduced row echelon form. -/
def rowReduce (m : Columns) : Checked Columns := do
  .ok (← reduceColumns false m.rows (List.range m.cols) 0 m).prettify

/-- A row echelon form with pivots 1. -/
def echelonForm (m : Columns) : Checked Columns := do
  .ok (← reduceColumns true m.rows (List.range m.cols) 0 m).prettify

/-- Refuses columns of any shape that is not square. -/
def requireSquare (m : Columns) (problem : Nat → Nat → ShapeProblem) : Checked Unit :=
  if m.isSquare then .ok () else refuse (problem m.rows m.cols)

/-- Clears an entry below a pivot with the pivot's reciprocal. -/
def clearBelow (k : Nat) (reciprocal : Value) (m : Columns) (row : Nat) : Checked Columns := do
  let entry ← m.entry row k
  if entry.isZero then finished (m.set row k .zero)
  else
    let quotient ← reported (entry.mul reciprocal)
    let m ← finished (m.addScaledRow row k quotient.negate)
    finished (m.set row k .zero)

/-- Clears the column below a pivot, from the last row up. -/
def clearColumnBelow (size : Nat) (m : Columns) (k : Nat) : Checked Columns := do
  let reciprocal ← reported (Value.one.div (← m.entry k k))
  (List.range' (k + 1) (size - (k + 1))).reverse.foldlM (clearBelow k reciprocal) m

/-- One column of the triangular form. A zero pivot is replaced from below, the row negated. -/
def triangularStep (size : Nat) (m : Columns) (k : Nat) : Checked Columns := do
  if (← m.entry k k).isZero then
    match ← m.findPivot? k (k + 1) with
    | none => .ok m
    | some pivot =>
      let m ← finished (m.swapRows k pivot)
      let m ← finished (m.scaleRow k .negOne)
      m.clearColumnBelow size k
  else m.clearColumnBelow size k

/-- An upper triangular form with the same determinant. -/
def makeTriangular (m : Columns) : Checked Columns := do
  m.requireSquare .triangularNotSquare
  (List.range m.rows).foldlM (triangularStep m.rows) m

/-! ## Determinants, inverses and systems -/

/-- The determinant by the triangular form. -/
def determinantTriangular (m : Columns) : Checked Value := do
  m.requireSquare .determinantNotSquare
  let triangular ← m.makeTriangular
  let product ← (List.range triangular.rows).foldlM (fun product i => do
    reported (product.mul (← triangular.entry i i))) Value.one
  .ok (product.rounded Grid.displayPlaces)

/-- The expansion by minors along the first row, for columns with so many rows: a minor has one row
less. -/
def expand : (size : Nat) → Columns → Checked Value
  | 0, _ => .ok .zero
  | 1, m => m.entry 0 0
  | 2, m => do
    let ad ← reported ((← m.entry 0 0).mul (← m.entry 1 1))
    let bc ← reported ((← m.entry 0 1).mul (← m.entry 1 0))
    reported (ad.sub bc)
  | size + 3, m => do
    let total ← (List.range (size + 3)).foldlM (fun total col => do
      let factor ← m.entry 0 col
      if factor.isZero then .ok total
      else
        let cofactor ← expand (size + 2) (m.minor 0 col)
        let term ← reported (factor.mul cofactor)
        .ok (some (← reported (Grid.addTerm total col term)))) none
    .ok (total.getD .zero)

/-- The determinant by expansion. -/
def determinantCofactor (m : Columns) : Checked Value := do
  m.requireSquare .determinantNotSquare
  if m.rows = 0 then .ok .one
  else .ok ((← expand m.rows m).rounded Grid.displayPlaces)

/-- The determinant: by the triangular form for numbers, by expansion otherwise. -/
def determinant (m : Columns) : Checked Value :=
  if m.isNumeric then m.determinantTriangular else m.determinantCofactor

/-- The characteristic polynomial in a symbol. -/
def characteristicPolynomial (m : Columns) (symbol : String) : Checked Value := do
  m.requireSquare .characteristicNotSquare
  let shifted ← (List.range m.rows).foldlM (fun m i => do
    let shifted ← reported ((← m.entry i i).sub (.symbolic symbol))
    finished (m.set i i shifted)) m
  shifted.determinantCofactor

/-- Refuses columns of numbers whose determinant counts as zero. -/
def refuseSingular (m : Columns) : Checked Unit := do
  if (← m.determinantTriangular).isZero then .error (.fault .singularMatrix) else .ok ()

/-- The inverse. -/
def invert (m : Columns) : Checked Columns := do
  m.requireSquare .inverseNotSquare
  if m.isNumeric then
    m.refuseSingular
    let augmented ← m.augment (← identity m.rows)
    (← augmented.rowReduce).columnsFrom m.rows
  else .error (.fault (.unsupported .inverseOfSymbols))

/-- The solution of a system with the given right side. -/
def solve (m : Columns) (right : List Value) : Checked (List Value) := do
  m.requireSquare .systemNotSquare
  if right.length = m.rows then
    if m.isNumeric then m.refuseSingular
    let augmented ← m.augment (← ofColumns [right])
    (← augmented.rowReduce).column m.cols
  else refuse (.rightSideLength right.length m.rows)

end Columns

end Reckon
