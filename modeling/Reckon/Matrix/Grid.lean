import Reckon.Value.Basic

/-!
# Grids

A grid holds a value for every row and column of a fixed shape, column by column. Its view is
`entry`: two grids with the same entries are equal, and every operation is described by its entries.
-/

namespace Reckon

/-- Values in `rows` rows and `cols` columns, stored by columns. -/
structure Grid (rows cols : Nat) where
  /-- The columns from left to right, each from top to bottom. -/
  columns : Vector (Vector Value rows) cols
deriving DecidableEq

namespace Grid

variable {rows cols : Nat}

/-- The entry in a row and a column. -/
def entry (g : Grid rows cols) (i : Fin rows) (j : Fin cols) : Value :=
  g.columns[j][i]

/-- The grid with the given entries. -/
def ofFn (f : Fin rows → Fin cols → Value) : Grid rows cols :=
  ⟨Vector.ofFn fun j => Vector.ofFn fun i => f i j⟩

/-- The grid with one entry changed. -/
def set (g : Grid rows cols) (i : Fin rows) (j : Fin cols) (value : Value) : Grid rows cols :=
  ⟨g.columns.set j (g.columns[j].set i value i.isLt) j.isLt⟩

/-- The grid with a function applied to every entry. -/
def map (f : Value → Value) (g : Grid rows cols) : Grid rows cols :=
  ⟨g.columns.map fun column => column.map f⟩

/-- The grid with two rows exchanged. -/
def swapRows (g : Grid rows cols) (a b : Fin rows) : Grid rows cols :=
  ⟨g.columns.map fun column => column.swap a b a.isLt b.isLt⟩

/-- The grid with rows and columns exchanged. -/
def transpose (g : Grid rows cols) : Grid cols rows :=
  ofFn fun i j => g.entry j i

/-- The same grid under another name of its shape. -/
def cast {rows' cols' : Nat} (hr : rows = rows') (hc : cols = cols') (g : Grid rows cols) :
    Grid rows' cols' :=
  hr ▸ hc ▸ g

/-- The grid followed by the columns of another one. -/
def augment {more : Nat} (g : Grid rows cols) (other : Grid rows more) : Grid rows (cols + more) :=
  ⟨g.columns ++ other.columns⟩

/-- The grid without its first columns. -/
def dropColumns (g : Grid rows cols) (start : Nat) : Grid rows (cols - start) :=
  ⟨g.columns.drop start⟩

/-- The index that the `a`-th remaining place has when place `i` is left out. -/
def skip {n : Nat} (i : Fin (n + 1)) (a : Fin n) : Fin (n + 1) :=
  if a.val < i.val then a.castSucc else a.succ

/-- The grid without one of its rows. -/
def removeRow (g : Grid (rows + 1) cols) (i : Fin (rows + 1)) : Grid rows cols :=
  ofFn fun a b => g.entry (skip i a) b

/-- The grid without one of its columns. -/
def removeColumn (g : Grid rows (cols + 1)) (j : Fin (cols + 1)) : Grid rows cols :=
  ofFn fun a b => g.entry a (skip j b)

/-- The square grid with ones on its diagonal and zeros elsewhere. -/
def identity (n : Nat) : Grid n n :=
  ofFn fun i j => if i = j then .one else .zero

/-- The grid of zeros. -/
def zeros (rows cols : Nat) : Grid rows cols :=
  ofFn fun _ _ => .zero

/-- The entries of one row. -/
def row (g : Grid rows cols) (i : Fin rows) : List Value :=
  g.columns.toList.map fun column => column[i]

/-- The columns as lists. -/
def columnLists (g : Grid rows cols) : List (List Value) :=
  g.columns.toList.map Vector.toList

/-- Whether every entry is a number. -/
def isNumeric (g : Grid rows cols) : Bool :=
  g.columns.all fun column => column.all Value.isNumeric

/-- Whether two grids are equal, numbers compared by value. -/
def same (g h : Grid rows cols) : Bool :=
  (List.finRange cols).all fun j => (List.finRange rows).all fun i =>
    (g.entry i j).same (h.entry i j)

/-- Grids with the same entries are the same. -/
@[ext] theorem ext {g h : Grid rows cols} (same : ∀ i j, g.entry i j = h.entry i j) : g = h := by
  obtain ⟨gs⟩ := g
  obtain ⟨hs⟩ := h
  congr 1
  apply Vector.ext
  intro j hj
  apply Vector.ext
  intro i hi
  exact same ⟨i, hi⟩ ⟨j, hj⟩

/-- An entry of a grid that is given by a function is the function's value there. -/
@[simp] theorem entry_ofFn (f : Fin rows → Fin cols → Value) (i : Fin rows) (j : Fin cols) :
    (ofFn f).entry i j = f i j := by
  simp [entry, ofFn]

/-- Setting an entry changes it and no other. -/
theorem entry_set (g : Grid rows cols) (i a : Fin rows) (j b : Fin cols) (value : Value) :
    (g.set i j value).entry a b = if i = a ∧ j = b then value else g.entry a b := by
  simp only [entry, set, Fin.getElem_fin, Vector.getElem_set, Fin.ext_iff]
  by_cases hj : j.val = b.val
  · simp only [hj, if_true, and_true, Vector.getElem_set]
  · simp only [hj, if_false, and_false]

/-- A function on all entries is one on each of them. -/
@[simp] theorem entry_map (f : Value → Value) (g : Grid rows cols) (i : Fin rows) (j : Fin cols) :
    (g.map f).entry i j = f (g.entry i j) := by
  simp [entry, map]

/-- Swapping two rows moves their entries and no other. -/
theorem entry_swapRows (g : Grid rows cols) (a b i : Fin rows) (j : Fin cols) :
    (g.swapRows a b).entry i j =
      if i = a then g.entry b j else if i = b then g.entry a j else g.entry i j := by
  simp only [entry, swapRows, Fin.getElem_fin, Vector.getElem_map, Vector.getElem_swap, Fin.ext_iff]

/-- The transpose has the entries with row and column exchanged. -/
@[simp] theorem entry_transpose (g : Grid rows cols) (i : Fin cols) (j : Fin rows) :
    g.transpose.entry i j = g.entry j i := by
  simp [transpose]

/-- Transposing twice gives the grid back. -/
theorem transpose_transpose (g : Grid rows cols) : g.transpose.transpose = g := by
  ext i j
  simp

end Grid

end Reckon
