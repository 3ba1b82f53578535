import Reckon.Matrix.Elimination

/-!
# Determinants

Two ways to the determinant: the product of the diagonal of the triangular form, and the expansion
by minors along the first row, which also works on text. The expansion passes over entries that
count as zero. Results are rounded to the places that are shown.
-/

namespace Reckon.Grid

/-- The product of the diagonal, from its first entry on. -/
def diagonalProduct {n : Nat} (g : Grid n n) : Except Fault Value :=
  (List.finRange n).foldlM (fun product i => product.mul (g.entry i i)) Value.one

/-- The determinant by the triangular form. -/
def determinantTriangular {n : Nat} (g : Grid n n) : Except Fault Value := do
  let triangular ← g.makeTriangular
  let product ← triangular.diagonalProduct
  .ok (product.rounded displayPlaces)

/-- The grid without a row and a column. -/
def minor {rows cols : Nat} (g : Grid (rows + 1) (cols + 1)) (i : Fin (rows + 1))
    (j : Fin (cols + 1)) : Grid rows cols :=
  (g.removeRow i).removeColumn j

/-- Adds a term of the expansion to the terms before it: odd columns count negatively. -/
def addTerm (total : Option Value) (column : Nat) (term : Value) : Except Fault Value :=
  match total with
  | none => .ok (if column % 2 = 1 then term.negate else term)
  | some sum => if column % 2 = 1 then sum.sub term else sum.add term

/-- The expansion by minors along the first row. -/
def expand : {n : Nat} → Grid n n → Except Fault Value
  | 0, _ => .ok .one
  | 1, g => .ok (g.entry 0 0)
  | 2, g => do
    let ad ← (g.entry 0 0).mul (g.entry 1 1)
    let bc ← (g.entry 0 1).mul (g.entry 1 0)
    ad.sub bc
  | n + 3, g => do
    let total ← (List.finRange (n + 3)).foldlM (fun total j =>
      let factor := g.entry 0 j
      if factor.isZero then pure total
      else do
        let cofactor ← expand (g.minor 0 j)
        let term ← factor.mul cofactor
        some <$> addTerm total j term) none
    .ok (total.getD .zero)

/-- The determinant by expansion. -/
def determinantCofactor {n : Nat} (g : Grid n n) : Except Fault Value :=
  g.expand.map (Value.rounded displayPlaces)

/-- The determinant: by the triangular form for numbers, by expansion otherwise. -/
def determinant {n : Nat} (g : Grid n n) : Except Fault Value :=
  if g.isNumeric then g.determinantTriangular else g.determinantCofactor

/-- The grid with a symbol taken from every entry of the diagonal. -/
def shiftDiagonal {n : Nat} (g : Grid n n) (symbol : String) : Except Fault (Grid n n) :=
  (List.finRange n).foldlM (fun g i => do
    let shifted ← (g.entry i i).sub (.symbolic symbol)
    .ok (g.set i i shifted)) g

/-- The characteristic polynomial in a symbol. -/
def characteristicPolynomial {n : Nat} (g : Grid n n) (symbol : String) : Except Fault Value := do
  let shifted ← g.shiftDiagonal symbol
  shifted.determinantCofactor

end Reckon.Grid
