import Reckon.Matrix.Grid

/-!
# Products of grids

An entry of a product is the sum of the products along a row and a column, formed from the left. The
entries are computed column by column, and the first one without room is the fault of the product.
-/

namespace Reckon.Grid

/-- The sum of products of paired values, from the left, after the terms before them. -/
def sumProducts (total : Option Value) : List (Value × Value) → Except Fault Value
  | [] => .ok (total.getD .zero)
  | (a, b) :: pairs => do
    let product ← a.mul b
    let sum ← match total with
      | none => .ok product
      | some total => total.add product
    sumProducts (some sum) pairs

/-- An entry of the product. -/
def productEntry {rows inner cols : Nat} (g : Grid rows inner) (h : Grid inner cols)
    (i : Fin rows) (j : Fin cols) : Except Fault Value :=
  sumProducts none ((List.finRange inner).map fun k => (g.entry i k, h.entry k j))

/-- The product. -/
def multiply {rows inner cols : Nat} (g : Grid rows inner) (h : Grid inner cols) :
    Except Fault (Grid rows cols) := do
  let columns ← Vector.ofFnM fun j => Vector.ofFnM fun i => g.productEntry h i j
  .ok ⟨columns⟩

end Reckon.Grid
