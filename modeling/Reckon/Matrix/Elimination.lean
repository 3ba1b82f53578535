import Reckon.Matrix.RowOperations

/-!
# Elimination

Gauss-Jordan elimination goes through the columns with a lead row. In each column the first entry at
or below the lead that does not count as zero becomes the pivot: its row is brought up, divided by
it, and taken from the other rows. A column without a pivot is passed over. The echelon form clears
the rows below the pivots only. The triangular form keeps the determinant: it divides no row, and a
row that is brought up is negated.
-/

namespace Reckon.Grid

variable {rows cols : Nat}

/-- The first row from `start` on whose entry in the column does not count as zero. -/
def findPivot? (g : Grid rows cols) (j : Fin cols) (start : Nat) : Option (Fin rows) :=
  (List.finRange rows).find? fun i => start ≤ i.val && !(g.entry i j).isZero

/-- Brings a pivot into the row and makes it one; nothing if the column has none from there on. -/
def normalizePivot (g : Grid rows cols) (i : Fin rows) (j : Fin cols) :
    Except Fault (Option (Grid rows cols)) :=
  match g.findPivot? j i with
  | none => .ok none
  | some pivot => do
    let g := g.swapRows i pivot
    let reciprocal ← Value.one.div (g.entry i j)
    let g ← orFault (g.scaleRow i reciprocal)
    .ok (some (g.set i j .one))

/-- Takes the multiple of the pivot's row from another row that clears the pivot's column. -/
def clearEntry (pivot : Fin rows) (j : Fin cols) (g : Grid rows cols) (i : Fin rows) :
    Except Fault (Grid rows cols) :=
  if i = pivot || (g.entry i j).isZero then .ok g
  else do
    let g ← orFault (g.addScaledRow i pivot (g.entry i j).negate)
    .ok (g.set i j .zero)

/-- The rows that a pivot clears: all of them, or those below it. -/
def targets (below : Bool) (pivot : Fin rows) : List (Fin rows) :=
  (List.finRange rows).filter fun i => !below || pivot.val < i.val

/-- Goes through columns with a lead row. -/
def reduceColumns (below : Bool) :
    List (Fin cols) → (lead : Nat) → Grid rows cols → Except Fault (Grid rows cols)
  | [], _, g => .ok g
  | j :: columns, lead, g =>
    if h : lead < rows then
      match g.normalizePivot ⟨lead, h⟩ j with
      | .error fault => .error fault
      | .ok none => reduceColumns below columns lead g
      | .ok (some g) =>
        match (targets below ⟨lead, h⟩).foldlM (clearEntry ⟨lead, h⟩ j) g with
        | .error fault => .error fault
        | .ok g => reduceColumns below columns (lead + 1) g
    else .ok g

/-- The reduced row echelon form, entries as they are shown. -/
def rowReduce (g : Grid rows cols) : Except Fault (Grid rows cols) :=
  (reduceColumns false (List.finRange cols) 0 g).map prettify

/-- A row echelon form with pivots 1, entries as they are shown. -/
def echelonForm (g : Grid rows cols) : Except Fault (Grid rows cols) :=
  (reduceColumns true (List.finRange cols) 0 g).map prettify

/-- Clears an entry below a pivot with the pivot's reciprocal. -/
def clearBelow {n : Nat} (k : Fin n) (reciprocal : Value) (g : Grid n n) (i : Fin n) :
    Except Fault (Grid n n) :=
  if (g.entry i k).isZero then .ok (g.set i k .zero)
  else do
    let quotient ← (g.entry i k).mul reciprocal
    let g ← orFault (g.addScaledRow i k quotient.negate)
    .ok (g.set i k .zero)

/-- Clears the column below a pivot, from the last row up. -/
def clearColumnBelow {n : Nat} (g : Grid n n) (k : Fin n) : Except Fault (Grid n n) := do
  let reciprocal ← Value.one.div (g.entry k k)
  (targets true k).reverse.foldlM (clearBelow k reciprocal) g

/-- One column of the triangular form. A zero pivot is replaced from below, the row negated. -/
def triangularStep {n : Nat} (g : Grid n n) (k : Fin n) : Except Fault (Grid n n) :=
  if (g.entry k k).isZero then
    match g.findPivot? k (k.val + 1) with
    | none => .ok g
    | some pivot => do
      let g ← orFault ((g.swapRows k pivot).scaleRow k .negOne)
      g.clearColumnBelow k
  else g.clearColumnBelow k

/-- An upper triangular form with the same determinant. -/
def makeTriangular {n : Nat} (g : Grid n n) : Except Fault (Grid n n) :=
  (List.finRange n).foldlM triangularStep g

end Reckon.Grid
