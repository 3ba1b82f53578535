import Reckon.Proofs.Matrix.StoredColumns

/-!
# Matrices changed in place

Matrices are used by their places in a memory. A procedure can put a matrix to a new place and change
the matrix at a place, and what it changed stays changed when it ends with a fault. Elimination is
written out once more as such procedures: every change is made at the place that it is told, and each
reduction works on a copy, which it first puts to a new place.
-/

namespace Reckon

/-- The matrices in use, by place. No place is ever given up, so that what a fault leaves half done
stays in sight. -/
abbrev Memory : Type :=
  List Columns

/-- A procedure on the matrices in use. What it changed stays changed when it ends without a result. -/
abbrev InPlace (α : Type) : Type :=
  ExceptT Mishap (StateM Memory) α

namespace InPlace

variable {α β : Type}

/-! ## Places -/

/-- What is computed without the memory. -/
def answer (x : Checked α) : InPlace α :=
  ExceptT.mk (pure x)

/-- The matrix at a place, without a check. -/
def read (place : Nat) : InPlace Columns := do
  answer (itemAt (← get) place)

/-- What is computed from the matrix at a place. -/
def ask (place : Nat) (f : Columns → Checked α) : InPlace α := do
  answer (f (← read place))

/-- Puts a matrix to a new place. -/
def put (m : Columns) : InPlace Nat := do
  let memory ← get
  set (memory ++ [m])
  pure memory.length

/-- Changes the matrix at a place. -/
def change (place : Nat) (f : Columns → Columns.Changed) : InPlace Unit := do
  let changed := f (← read place)
  modify fun memory => memory.set place changed.1
  match changed.2 with
  | none => pure ()
  | some mishap => throw mishap

/-- Multiplies a row by a factor. -/
def scaleRow (place row : Nat) (factor : Value) : InPlace Unit :=
  change place (·.scaleRow row factor)

/-- Adds a multiple of one row to another one. -/
def addScaledRow (place target source : Nat) (factor : Value) : InPlace Unit :=
  change place (·.addScaledRow target source factor)

/-! ## Reductions -/

/-- Brings the row of a pivot up and makes the pivot one. -/
def bringUp (place row col pivot : Nat) : InPlace Unit := do
  change place (·.swapRows row pivot)
  let reciprocal ← ask place fun m => do reported (Value.one.div (← m.entry row col))
  scaleRow place row reciprocal
  change place (·.set row col .one)

/-- Brings a pivot into the row and makes it one; nothing if the column has none from there on. Says
whether there is a pivot. -/
def normalizePivot (place row col : Nat) : InPlace Bool := do
  match ← ask place (·.findPivot? col row) with
  | none => pure false
  | some pivot => do
    bringUp place row col pivot
    pure true

/-- Takes the multiple of the pivot's row from another row that clears the pivot's column. -/
def clearEntry (place pivot col row : Nat) : InPlace Unit :=
  if row = pivot then pure ()
  else do
    let factor ← ask place (·.entry row col)
    if factor.isZero then pure ()
    else do
      addScaledRow place row pivot factor.negate
      change place (·.set row col .zero)

/-- Clears the pivot's column in some rows. -/
def eliminate (place pivot col : Nat) (rows : List Nat) : InPlace Unit :=
  rows.forM (clearEntry place pivot col)

/-- Goes through columns with a lead row; `rows` is the number of rows. -/
def reduceColumns (below : Bool) (rows place : Nat) : List Nat → (lead : Nat) → InPlace Unit
  | [], _ => pure ()
  | col :: columns, lead =>
    if rows ≤ lead then pure ()
    else do
      if ← normalizePivot place lead col then do
        let start := if below then lead + 1 else 0
        eliminate place lead col (List.range' start (rows - start))
        reduceColumns below rows place columns (lead + 1)
      else reduceColumns below rows place columns lead

/-- Puts a matrix to a new place, works on it there and takes it from there. -/
def onCopy (m : Columns) (work : Nat → InPlace Unit) : InPlace Columns := do
  let copy ← put m
  work copy
  read copy

/-- Reduces a copy. -/
def reduce (below : Bool) (place : Nat) : InPlace Columns := do
  let m ← read place
  onCopy m fun copy => do
    reduceColumns below m.rows copy (List.range m.cols) 0
    change copy fun m => (m.prettify, none)

/-- The reduced row echelon form. -/
def rowReduce (place : Nat) : InPlace Columns :=
  reduce false place

/-- A row echelon form with pivots 1. -/
def echelonForm (place : Nat) : InPlace Columns :=
  reduce true place

/-- Clears an entry below a pivot with the pivot's reciprocal. -/
def clearBelow (place k : Nat) (reciprocal : Value) (row : Nat) : InPlace Unit := do
  let entry ← ask place (·.entry row k)
  if entry.isZero then change place (·.set row k .zero)
  else do
    let quotient ← answer (reported (entry.mul reciprocal))
    addScaledRow place row k quotient.negate
    change place (·.set row k .zero)

/-- Clears the column below a pivot, from the last row up. -/
def clearColumnBelow (size place k : Nat) : InPlace Unit := do
  let reciprocal ← ask place fun m => do reported (Value.one.div (← m.entry k k))
  (List.range' (k + 1) (size - (k + 1))).reverse.forM (clearBelow place k reciprocal)

/-- One column of the triangular form. A zero pivot is replaced from below, the row negated. -/
def triangularStep (size place k : Nat) : InPlace Unit := do
  let entry ← ask place (·.entry k k)
  if entry.isZero then
    match ← ask place (·.findPivot? k (k + 1)) with
    | none => pure ()
    | some pivot =>
      change place (·.swapRows k pivot)
      scaleRow place k .negOne
      clearColumnBelow size place k
  else clearColumnBelow size place k

/-- An upper triangular form with the same determinant, of a copy. -/
def makeTriangular (place : Nat) : InPlace Columns := do
  ask place (·.requireSquare .triangularNotSquare)
  let m ← read place
  onCopy m fun copy => (List.range m.rows).forM (triangularStep m.rows copy)

/-- The determinant by the triangular form. -/
def determinantTriangular (place : Nat) : InPlace Value := do
  ask place (·.requireSquare .determinantNotSquare)
  let triangular ← makeTriangular place
  answer do
    let product ← (List.range triangular.rows).foldlM (fun product i => do
      reported (product.mul (← triangular.entry i i))) Value.one
    .ok (product.rounded Grid.displayPlaces)

/-- Refuses a matrix of numbers whose determinant counts as zero. -/
def refuseSingular (place : Nat) : InPlace Unit := do
  let determinant ← determinantTriangular place
  if determinant.isZero then throw (.fault .singularMatrix) else pure ()

/-- Puts the matrix at a place with further columns beside it to a new place and reduces it. -/
def reduceBeside (place : Nat) (beside : Checked Columns) : InPlace Columns := do
  let augmented ← ask place fun m => do m.augment (← beside)
  let place ← put augmented
  rowReduce place

/-- The inverse. -/
def invert (place : Nat) : InPlace Columns := do
  ask place (·.requireSquare .inverseNotSquare)
  let m ← read place
  if m.isNumeric then do
    refuseSingular place
    let reduced ← reduceBeside place (Columns.identity m.rows)
    answer (reduced.columnsFrom m.rows)
  else throw (.fault (.unsupported .inverseOfSymbols))

/-- The solution of a system with the given right side. -/
def solve (place : Nat) (right : List Value) : InPlace (List Value) := do
  ask place (·.requireSquare .systemNotSquare)
  let m ← read place
  if right.length = m.rows then do
    if m.isNumeric then refuseSingular place
    let reduced ← reduceBeside place (Columns.ofColumns [right])
    answer (reduced.column m.cols)
  else answer (refuse (.rightSideLength right.length m.rows))

/-! ## Outcomes -/

/-- What a procedure ends with, and the memory after it. -/
def outcome (x : InPlace α) (memory : Memory) : Checked α × Memory :=
  Id.run ((ExceptT.run x).run memory)

variable {memory after : Memory} {x : InPlace α} {next : α → InPlace β}

/-- A computation in place goes on from the result and the memory that the first one leaves. -/
theorem outcome_bind (x : InPlace α) (next : α → InPlace β) (memory : Memory) :
    (x >>= next).outcome memory =
      Id.run ((ExceptT.bindCont next (x.outcome memory).1 : StateM Memory _).run
        (x.outcome memory).2) :=
  rfl

/-- A computation in place that succeeds hands its result and its memory on. -/
theorem outcome_bind_ok {a : α} (h : x.outcome memory = (.ok a, after)) :
    (x >>= next).outcome memory = (next a).outcome after := by
  rw [outcome_bind, h]
  rfl

/-- A computation in place that fails ends the whole with the memory that it leaves. -/
theorem outcome_bind_error {mishap : Mishap} (h : x.outcome memory = (.error mishap, after)) :
    (x >>= next).outcome memory = (.error mishap, after) := by
  rw [outcome_bind, h]
  rfl

/-- Changing the memory always succeeds. -/
theorem modify_outcome (f : Memory → Memory) (memory : Memory) :
    (modify f : InPlace Unit).outcome memory = (.ok (), f memory) :=
  rfl

/-- A matrix that is put into the memory stands behind all others. -/
theorem put_outcome (m : Columns) (memory : Memory) :
    (put m).outcome memory = (.ok memory.length, memory ++ [m]) :=
  rfl

section

variable {place : Nat} {m : Columns}

/-- Reading a matrix that is held changes nothing. -/
theorem read_outcome (held : memory[place]? = some m) :
    (read place).outcome memory = (.ok m, memory) := by
  change (itemAt memory place, memory) = _
  rw [itemAt, held]

/-- Asking a matrix that is held changes nothing. -/
theorem ask_outcome (held : memory[place]? = some m) (f : Columns → Checked α) :
    (ask place f).outcome memory = (f m, memory) := by
  rw [ask, outcome_bind_ok (read_outcome held)]
  rfl

/-- A change that fails leaves what it changed before. -/
theorem change_outcome (held : memory[place]? = some m) (f : Columns → Columns.Changed) :
    (change place f).outcome memory =
      ((Columns.finished (f m)).map fun _ => (), memory.set place (f m).1) := by
  rw [change, outcome_bind_ok (read_outcome held)]
  dsimp only
  rw [outcome_bind_ok (modify_outcome _ memory)]
  obtain ⟨changed, _ | mishap⟩ := f m <;> rfl

end

end InPlace

end Reckon
