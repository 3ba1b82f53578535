import Reckon.Proofs.Matrix.RowReduction

/-!
# Products of transposed matrices

The entry of a product in a row and a column is the entry of the product of the transposed matrices
in that column and row: both are the same sum, formed in the same order. So rounding does the same
to both, and a matrix of numbers has its product if and only if the transposed matrices have theirs.
Which entry without room is met first may differ.
-/

namespace Reckon

/-- A vector is computed if all its items are. -/
theorem ofFnM_eq_ok_iff {α : Type} {n : Nat} {f : Fin n → Except Fault α} {v : Vector α n} :
    Vector.ofFnM f = .ok v ↔ ∀ i : Fin n, f i = .ok (v.get i) := by
  have item {m : Nat} (w : Vector α m) (i : Fin m) : w.get i = w[i] := rfl
  simp only [item]
  constructor
  · intro computed i
    induction n with
    | zero => exact i.elim0
    | succ n ih =>
      rw [Vector.ofFnM_succ] at computed
      obtain ⟨front, first, computed⟩ := bind_eq_ok.1 computed
      obtain ⟨last, atLast, pushed⟩ := bind_eq_ok.1 computed
      obtain rfl : front.push last = v := Except.ok.inj pushed
      cases i using Fin.lastCases with
      | last => simpa using atLast
      | cast i => simpa [Vector.getElem_push] using ih first i
  · intro items
    have given : f = fun i => pure v[i] := funext items
    rw [given, Vector.ofFnM_pure]
    exact congrArg Except.ok Vector.ofFn_getElem

/-- Numbers may be multiplied in either order. -/
theorem Value.mul_comm_of_isNumeric {v w : Value} (left : v.isNumeric = true)
    (right : w.isNumeric = true) : v.mul w = w.mul v := by
  cases v with
  | symbolic text => cases left
  | number a =>
    cases w with
    | symbolic text => cases right
    | number b =>
      rw [mul, mul, combine, combine, Operator.apply, Operator.apply, Decimal.mul?_comm]

namespace Grid

variable {rows inner cols : Nat} {g : Grid rows inner} {h : Grid inner cols} {p : Grid rows cols}

/-- A product is found if all its entries are. -/
theorem multiply_eq_ok_iff :
    g.multiply h = .ok p ↔ ∀ i j, g.productEntry h i j = .ok (p.entry i j) := by
  rw [multiply, bind_eq_ok]
  constructor
  · rintro ⟨columns, computed, same⟩ i j
    obtain rfl := Except.ok.inj same
    exact ofFnM_eq_ok_iff.1 (ofFnM_eq_ok_iff.1 computed j) i
  · intro entries
    refine ⟨p.columns, ofFnM_eq_ok_iff.2 fun j => ?_, rfl⟩
    exact ofFnM_eq_ok_iff.2 fun i => entries i j

/-- The factors of every term may be exchanged: the terms are added up in the same order. -/
theorem sumProducts_swap {pairs : List (Value × Value)}
    (numeric : ∀ pair ∈ pairs, pair.1.isNumeric = true ∧ pair.2.isNumeric = true)
    (total : Option Value) :
    sumProducts total (pairs.map Prod.swap) = sumProducts total pairs := by
  induction pairs generalizing total with
  | nil => rfl
  | cons pair pairs ih =>
    obtain ⟨first, others⟩ := List.forall_mem_cons.1 numeric
    have product : pair.2.mul pair.1 = pair.1.mul pair.2 :=
      Value.mul_comm_of_isNumeric first.2 first.1
    rw [List.map_cons, Prod.swap, sumProducts, sumProducts, product]
    simp only [ih others]

/-- An entry is the same sum for the transposed grids. -/
theorem productEntry_transpose (left : g.isNumeric = true) (right : h.isNumeric = true)
    (i : Fin rows) (j : Fin cols) :
    h.transpose.productEntry g.transpose j i = g.productEntry h i j := by
  have terms : (List.finRange inner).map (fun k => (h.transpose.entry j k, g.transpose.entry k i)) =
      ((List.finRange inner).map fun k => (g.entry i k, h.entry k j)).map Prod.swap := by
    simp only [entry_transpose, List.map_map, Function.comp_def, Prod.swap]
  rw [productEntry, productEntry, terms]
  refine sumProducts_swap (fun pair member => ?_) none
  obtain ⟨k, -, rfl⟩ := List.mem_map.1 member
  exact ⟨isNumeric_iff.1 left i k, isNumeric_iff.1 right k j⟩

/-- The product of the transposed grids in reverse order is the transposed product. -/
theorem multiply_transpose_eq_ok_iff (left : g.isNumeric = true) (right : h.isNumeric = true)
    {q : Grid cols rows} :
    h.transpose.multiply g.transpose = .ok q ↔ g.multiply h = .ok q.transpose := by
  rw [multiply_eq_ok_iff, multiply_eq_ok_iff, forall_comm]
  simp only [productEntry_transpose left right, entry_transpose]

end Grid

namespace ValueMatrix

/-- A matrix with rows is transposed by transposing its grid. -/
theorem transpose_of_rows {m : ValueMatrix} (rows : 0 < m.rows) :
    m.transpose = ofGrid m.grid.transpose rows :=
  dif_pos rows

/-- Transposing twice gives the matrix back; one without rows is left as it is both times. -/
theorem transpose_transpose (m : ValueMatrix) : m.transpose.transpose = m := by
  by_cases rows : 0 < m.rows
  · have again : 0 < (ofGrid m.grid.transpose rows).rows := m.cols_pos
    rw [transpose_of_rows rows, transpose_of_rows again]
    simp only [ofGrid, Grid.transpose_transpose]
  · have kept : m.transpose = m := dif_neg rows
    rw [kept, kept]

/-- Transposition reverses products. Two matrices of numbers, the first one with a row, whose inner
sizes agree either both have a product, the one of the transposed matrices being the transposed one
to the last digit, or neither of them has one. And every matrix, of numbers or text and with rows or
without, is its own transposed matrix transposed. -/
theorem transpose_reverses_products :
    (∀ a b : ValueMatrix, 0 < a.rows → a.cols = b.rows → a.isNumeric = true → b.isNumeric = true →
      (∃ product, a.multiply b = .ok product ∧
        b.transpose.multiply a.transpose = .ok product.transpose) ∨
      ∃ fault fault', a.multiply b = .error fault ∧
        b.transpose.multiply a.transpose = .error fault') ∧
    ∀ m : ValueMatrix, m.transpose.transpose = m := by
  refine ⟨?_, transpose_transpose⟩
  rintro ⟨rows, inner, g, posInner⟩ ⟨_, cols, h, posCols⟩ (posRows : 0 < rows) ⟨rfl⟩
    (left : g.isNumeric = true) (right : h.isNumeric = true)
  have plain : multiply ⟨rows, inner, g, posInner⟩ ⟨inner, cols, h, posCols⟩ =
      (g.multiply h).map fun product => ofGrid product posCols := dif_pos rfl
  have reversed : multiply (ofGrid h.transpose posInner) (ofGrid g.transpose posRows) =
      (h.transpose.multiply g.transpose).map fun product => ofGrid product posRows := dif_pos rfl
  have transposedLeft : transpose ⟨rows, inner, g, posInner⟩ = ofGrid g.transpose posRows :=
    dif_pos posRows
  have transposedRight : transpose ⟨inner, cols, h, posCols⟩ = ofGrid h.transpose posInner :=
    dif_pos posInner
  rw [transposedLeft, transposedRight, plain, reversed]
  have agree := fun q => Grid.multiply_transpose_eq_ok_iff (q := q) left right
  cases product : g.multiply h with
  | ok p =>
    have transposed := (agree p.transpose).2 (by rw [product, Grid.transpose_transpose])
    have shown : (ofGrid p posCols).transpose = ofGrid p.transpose posRows := dif_pos posRows
    refine .inl ⟨ofGrid p posCols, rfl, ?_⟩
    rw [transposed, shown]
    rfl
  | error fault =>
    cases other : h.transpose.multiply g.transpose with
    | ok q => cases product.symm.trans ((agree q).1 other)
    | error fault' => exact .inr ⟨fault, fault', rfl, rfl⟩

/-- A row times two columns, where a product and a sum are rounded. -/
theorem transpose_reverses_products_rounded :
    let third : Value := .number ⟨false, 3333333333333333333333333333, 28, by decide, by decide⟩
    let a : ValueMatrix := ofGrid ⟨#v[#v[third], #v[.number .two]]⟩ (by decide)
    let b : ValueMatrix :=
      ofGrid ⟨#v[#v[third, .one], #v[.number .three, .number .four]]⟩ (by decide)
    let product : ValueMatrix := ofGrid
      ⟨#v[#v[.number ⟨false, 21111111111111111111111111111, 28, by decide, by decide⟩],
        #v[.number ⟨false, 9000000000000000000000000000, 27, by decide, by decide⟩]]⟩ (by decide)
    0 < a.rows ∧ a.cols = b.rows ∧ a.isNumeric = true ∧ b.isNumeric = true ∧
      a.multiply b = .ok product ∧
      b.transpose.multiply a.transpose = .ok product.transpose := by
  intro third a b product
  have shapes : 0 < a.rows ∧ a.cols = b.rows := by decide
  have numeric : a.isNumeric = true ∧ b.isNumeric = true := by decide +kernel
  have entries : ∀ i j, a.grid.productEntry b.grid i j = .ok (product.grid.entry i j) := by
    decide +kernel
  have computed : a.multiply b = .ok product :=
    congrArg (Except.map fun p => ofGrid p b.cols_pos) (Grid.multiply_eq_ok_iff.2 entries)
  refine ⟨shapes.1, shapes.2, numeric.1, numeric.2, computed, ?_⟩
  rcases transpose_reverses_products.1 a b shapes.1 shapes.2 numeric.1 numeric.2 with
    ⟨found, same, transposed⟩ | ⟨fault, -, failed, -⟩
  · obtain rfl : product = found := Except.ok.inj (computed.symm.trans same)
    exact transposed
  · cases computed.symm.trans failed

end ValueMatrix

end Reckon
