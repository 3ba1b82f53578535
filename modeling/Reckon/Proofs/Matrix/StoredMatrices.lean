import Reckon.Proofs.Matrix.StoredElimination

/-!
# Operations on matrices of any shape, on stored columns

Every operation that makes, changes or asks a matrix does the same on the columns as they are stored,
with any arguments: an index that is outside of the shape is refused by a check, and behind the checks
no access goes outside.
-/

namespace Reckon

namespace ValueMatrix

/-- The columns of a matrix as they are stored. -/
def stored (m : ValueMatrix) : Columns :=
  m.grid.stored

/-- A change of a matrix as it is made on the stored columns. -/
def storedChange (changed : Changed) : Columns.Changed :=
  (changed.1.stored, changed.2.map .fault)

variable (m : ValueMatrix)

/-- The stored columns have as many rows as the matrix. -/
theorem stored_rows : m.stored.rows = m.rows :=
  m.grid.stored_rows m.cols_pos

/-- The stored columns are as many as the columns of the matrix. -/
theorem stored_cols : m.stored.cols = m.cols :=
  m.grid.stored_cols

/-- The check of bounds refuses a place outside of the matrix and names the shape. -/
theorem checkBounds_of_outside {row col : Nat} (outside : ¬ (row < m.rows ∧ col < m.cols)) :
    m.stored.checkBounds row col = refuse (.entryOutside row col m.rows m.cols) :=
  m.grid.checkBounds_of_outside m.cols_pos outside

/-! ## New matrices -/

/-- Making a matrix of columns gives its stored columns, or refuses uneven ones alike. -/
theorem mirrors_ofColumns (columns : List (List Value)) :
    Mirrors stored (Columns.ofColumns columns) (ofColumns columns) := by
  cases columns with
  | nil => exact mirrors_error stored _
  | cons first rest =>
    rw [Columns.ofColumns, ofColumns]
    split
    · next index found uneven =>
      split
      · next index' found' again =>
        obtain ⟨rfl, rfl⟩ := Prod.mk.inj (Option.some.inj (uneven.symm.trans again))
        exact mirrors_error stored _
      · next even => cases uneven.symm.trans even
    · next even =>
      split
      · next index found uneven => cases uneven.symm.trans even
      · next even =>
        have lists := columnLists_gridOfColumns (length_of_unevenColumn?_eq_none even)
        exact congrArg (fun lists => (.ok ⟨lists⟩ : Checked Columns)) lists.symm

/-- Reading the same index of lists that are all long enough leaves none of them out. -/
theorem mapM_itemAt {lists : List (List Value)} {i : Nat} (inside : ∀ list ∈ lists, i < list.length) :
    (lists.mapM fun list => itemAt list i) = .ok (lists.filterMap fun list => list[i]?) := by
  induction lists with
  | nil => rfl
  | cons list lists ih =>
    have found := List.getElem?_eq_getElem (inside list List.mem_cons_self)
    rw [List.mapM_cons, ih fun other mem => inside other (List.mem_cons_of_mem list mem), itemAt,
      List.filterMap_cons, found]
    rfl

/-- Making a matrix of rows gives its stored columns, or refuses uneven ones alike. -/
theorem mirrors_ofRows (rows : List (List Value)) :
    Mirrors stored (Columns.ofRows rows) (ofRows rows) := by
  cases rows with
  | nil => exact mirrors_error stored _
  | cons first rest =>
    rw [Columns.ofRows, ofRows]
    by_cases even : ∀ row ∈ first :: rest, row.length = first.length
    · have crossed : ((List.range first.length).mapM fun col =>
          (first :: rest).mapM fun row => itemAt row col) =
            .ok (crossLists first.length (first :: rest)) :=
        mapM_eq_map fun col mem => mapM_itemAt fun row among => by
          rw [even row among]
          exact List.mem_range.1 mem
      rw [if_neg (by simpa using even), if_pos (by simpa using even), crossed, ok_bind]
      exact mirrors_ofColumns _
    · rw [if_pos (by simpa using even), if_neg (by simpa using even)]
      exact mirrors_error stored _

/-- A stored matrix of zeros is the stored form of the matrix of zeros. -/
theorem stored_zeros (rows cols : Nat) : Columns.zeros rows cols = (zeros rows cols).stored := by
  rw [Columns.zeros, ← Grid.columnLists_zeros]
  rfl

/-- A stored identity is built within its bounds and is the stored form of the identity. -/
theorem stored_identity (size : Nat) : Columns.identity size = .ok (identity size).stored := by
  rw [identity]
  split
  · next pos => exact Grid.stored_identity pos
  · next none =>
    obtain rfl := Nat.eq_zero_of_not_pos none
    exact congrArg Except.ok (stored_zeros 0 1)

/-! ## Questions -/

/-- Reading a stored entry gives the entry, and an entry outside is refused before it is read. -/
theorem mirrors_get (row col : Nat) : Mirrors id (m.stored.get row col) (m.get row col) := by
  rw [Columns.get, get, atPlace]
  split
  · next inside =>
    have checked := m.grid.stored_checkBounds ⟨row, inside.1⟩ ⟨col, inside.2⟩
    have read := m.grid.stored_entry ⟨row, inside.1⟩ ⟨col, inside.2⟩
    rw [stored, checked, ok_bind, read]
    exact mirrors_ok id _
  · next outside =>
    rw [m.checkBounds_of_outside outside]
    exact mirrors_error id _

/-- Reading a stored row gives the row, and a row outside is refused before it is read. -/
theorem mirrors_row (row : Nat) : Mirrors id (m.stored.row row) (m.row row) := by
  rw [Columns.row, ValueMatrix.row, stored_rows, stored_cols]
  split
  · next outside =>
    rw [dif_neg (Nat.not_lt_of_le outside)]
    exact mirrors_error id _
  · next inside =>
    rw [dif_pos (Nat.lt_of_not_le inside)]
    exact m.grid.mapM_itemAt ⟨row, Nat.lt_of_not_le inside⟩

/-- Reading a stored column gives the column, and a column outside is refused before it is read. -/
theorem mirrors_column (col : Nat) : Mirrors id (m.stored.column col) (m.column col) := by
  have lists : m.stored.lists = m.grid.columnLists := rfl
  rw [Columns.column, column, stored_rows, stored_cols, lists]
  cases m.grid.columnLists[col]? with
  | none => exact mirrors_error id _
  | some column => exact mirrors_ok id column

/-! ## Changes in place -/

/-- Setting a stored entry changes what setting the entry changes, and refuses the same places. -/
theorem stored_set (row col : Nat) (value : Value) :
    m.stored.set row col value = storedChange (m.set row col value) := by
  rw [set]
  split
  · next inside => exact m.grid.stored_set ⟨row, inside.1⟩ ⟨col, inside.2⟩ value
  · next outside =>
    rw [Columns.set, m.checkBounds_of_outside outside]
    rfl

/-- A change of rows that are inside the shape is one of the grid, any other one is refused. -/
theorem stored_atRows {a b row : Nat} (later : max a b = row) {f : List Value → Checked (List Value)}
    {F : Fin m.rows → Fin m.rows → Grid m.rows m.cols × Option Fault}
    (inside : ∀ i j : Fin m.rows, i.val = a → j.val = b →
      m.stored.changeColumns row f = Grid.storedChange (F i j)) :
    m.stored.changeColumns row f = storedChange (m.atRows a b F) := by
  subst later
  rw [atRows]
  split
  · next within => exact inside ⟨a, within.1⟩ ⟨b, within.2⟩ rfl rfl
  · next outside =>
    rw [Columns.changeColumns, m.checkBounds_of_outside (by omega)]
    rfl

/-- Two stored rows are swapped like two rows, with the same indices refused. -/
theorem stored_swapRows (a b : Nat) :
    m.stored.swapRows a b = storedChange (m.swapRows a b) := by
  refine m.stored_atRows rfl ?_
  rintro i j rfl rfl
  exact m.grid.stored_swapRows m.cols_pos i j

/-- A stored row is scaled like a row, up to the first product that fails. -/
theorem stored_scaleRow (row : Nat) (factor : Value) :
    m.stored.scaleRow row factor = storedChange (m.scaleRow row factor) := by
  refine m.stored_atRows (Nat.max_self row) ?_
  rintro i j rfl -
  exact m.grid.stored_scaleRow m.cols_pos i factor

/-- A multiple of a stored row is added like that of a row, up to the first entry that fails. -/
theorem stored_addScaledRow (target source : Nat) (factor : Value) :
    m.stored.addScaledRow target source factor =
      storedChange (m.addScaledRow target source factor) := by
  refine m.stored_atRows rfl ?_
  rintro i j rfl rfl
  exact m.grid.stored_addScaledRow m.cols_pos i j factor

/-- Snapping and rounding every stored entry is the stored form of it. -/
theorem stored_prettify : m.stored.prettify = m.prettify.stored :=
  m.grid.stored_prettify

/-! ## Matrices from matrices -/

/-- Stored columns are augmented like the matrix, or refused for the same heights. -/
theorem mirrors_augment (other : ValueMatrix) :
    Mirrors stored (m.stored.augment other.stored) (m.augment other) := by
  obtain ⟨rows, cols, grid, pos⟩ := m
  obtain ⟨rows', cols', grid', pos'⟩ := other
  rw [augment]
  by_cases same : rows' = rows
  · subst same
    rw [dif_pos rfl]
    exact grid.stored_augment grid' pos pos'
  · rw [dif_neg same, Columns.augment, stored_rows, stored_rows, if_neg (Ne.symm same)]
    exact mirrors_error stored _

/-- Taking the stored columns from one on gives the stored form of those columns, or the same
refusal. -/
theorem mirrors_columnsFrom (start : Nat) :
    Mirrors stored (m.stored.columnsFrom start) (m.columnsFrom start) := by
  rw [columnsFrom]
  split
  · next inside => exact m.grid.stored_columnsFrom inside
  · next outside =>
    rw [Columns.columnsFrom, stored_cols, if_pos (Nat.le_of_not_lt outside)]
    exact mirrors_error stored _

/-- Transposing stored columns stays within them and gives the stored transpose. -/
theorem stored_transpose : m.stored.transpose = .ok m.transpose.stored := by
  obtain ⟨rows, cols, grid, pos⟩ := m
  have read : ((List.range rows).mapM fun row => grid.columnLists.mapM fun column =>
      itemAt column row) = .ok grid.transpose.columnLists := by
    have lists : grid.transpose.columnLists = (List.finRange rows).map fun i => grid.row i := by
      simp only [Grid.columnLists_eq_ofFn, Grid.row_eq_ofFn, Grid.entry_transpose, List.ofFn_eq_map]
    rw [← List.map_coe_finRange_eq_range, List.mapM_map, lists]
    exact mapM_eq_map fun i _ => grid.mapM_itemAt i
  rw [Columns.transpose, stored_rows]
  change ((List.range rows).mapM fun row => grid.columnLists.mapM fun column =>
    itemAt column row) >>= _ = _
  rw [read, ok_bind, transpose, stored_cols]
  by_cases some : 0 < rows
  · have kept : grid.transpose.columnLists.isEmpty = false := by
      rw [Grid.columnLists_eq_map, List.isEmpty_eq_false_iff, Ne, List.map_eq_nil_iff,
        List.finRange_eq_nil_iff]
      exact some.ne'
    rw [kept, if_neg Bool.false_ne_true, dif_pos some]
    rfl
  · obtain rfl := Nat.eq_zero_of_not_pos some
    have wide : max 1 cols = cols := max_eq_right pos
    have same : grid = Grid.zeros 0 cols := Grid.ext fun i => i.elim0
    have kept : Columns.zeros 0 cols = grid.stored := by
      rw [Columns.zeros, wide, ← Grid.columnLists_zeros, same]
      rfl
    have empty : grid.transpose.columnLists = [] := by
      rw [Grid.columnLists_eq_map, List.finRange_zero, List.map_nil]
    rw [empty, dif_neg some]
    exact congrArg Except.ok kept

/-- Stored columns are multiplied like matrices, with the same shapes refused. -/
theorem mirrors_multiply (other : ValueMatrix) :
    Mirrors stored (m.stored.multiply other.stored) (m.multiply other) := by
  obtain ⟨rows, cols, grid, pos⟩ := m
  obtain ⟨rows', cols', grid', pos'⟩ := other
  rw [multiply]
  by_cases same : rows' = cols
  · subst same
    rw [dif_pos rfl]
    exact (grid.mirrors_multiply grid' pos pos').map_right fun _ => rfl
  · rw [dif_neg same, Columns.multiply, stored_rows, stored_rows, stored_cols, stored_cols,
      if_neg (Ne.symm same)]
    exact mirrors_error stored _

/-- Leaving a row out drops its entry from every stored column. -/
theorem lists_removeRow (row : Nat) :
    (m.removeRow row).stored.lists = m.stored.lists.map fun column => column.eraseIdx row := by
  have unchanged : ∀ {rows cols : Nat} (grid : Grid rows cols), rows ≤ row →
      grid.columnLists = grid.columnLists.map fun column => column.eraseIdx row := by
    intro rows cols grid outside
    refine (List.map_congr_left fun column mem => ?_).trans (List.map_id _) |>.symm
    exact List.eraseIdx_of_length_le (Grid.length_of_mem_columnLists mem ▸ outside)
  obtain ⟨_ | rows, cols, grid, pos⟩ := m
  · exact unchanged grid (Nat.zero_le row)
  · rw [removeRow]
    split
    · next inside => exact grid.columnLists_removeRow ⟨row, inside⟩
    · next outside => exact unchanged grid (Nat.le_of_not_lt outside)

/-- The stored minor is the stored form of the minor. -/
theorem stored_minor (row col : Nat) : m.stored.minor row col = (m.minor row col).stored := by
  have left : ((m.stored.lists.eraseIdx col).map fun column => column.eraseIdx row) =
      (m.removeRow row).stored.lists.eraseIdx col := by
    rw [lists_removeRow, List.eraseIdx_map]
  rw [minor]
  -- From here on the columns without the row are any columns of one length.
  generalize m.removeRow row = rest at left
  obtain ⟨rows, _ | cols, grid, pos⟩ := rest
  · exact absurd pos (Nat.lt_irrefl 0)
  · by_cases inside : col < cols + 1
    · by_cases some : 0 < cols
      · simp only [inside, some, ↓reduceDIte]
        exact Grid.minor_of_eq some
          (left.trans (grid.columnLists_removeColumn ⟨col, inside⟩).symm)
      · obtain rfl := Nat.eq_zero_of_not_pos some
        obtain rfl : col = 0 := by omega
        have empty : ((m.stored.lists.eraseIdx 0).map fun column => column.eraseIdx row) = [] := by
          rw [left]
          exact congrArg (List.eraseIdx · 0) grid.columnLists_eq_map
        simp only [inside, ↓reduceDIte, Nat.lt_irrefl]
        rw [Columns.minor, empty]
        exact stored_zeros 0 0
    · simp only [inside, ↓reduceDIte]
      refine Grid.minor_of_eq pos (left.trans (List.eraseIdx_of_length_le ?_))
      change grid.stored.cols ≤ col
      rw [Grid.stored_cols]
      exact Nat.le_of_not_lt inside

/-- Stored columns are reduced to the reduced echelon form of the matrix, without an access outside.
-/
theorem mirrors_rowReduce : Mirrors stored m.stored.rowReduce m.rowReduce :=
  (m.grid.mirrors_rowReduce m.cols_pos).map_right fun _ => rfl

/-- Stored columns are brought to the echelon form of the matrix, without an access outside. -/
theorem mirrors_echelonForm : Mirrors stored m.stored.echelonForm m.echelonForm :=
  (m.grid.mirrors_echelonForm m.cols_pos).map_right fun _ => rfl

/-! ## Square matrices -/

/-- An operation for square matrices refuses stored columns of another shape. -/
theorem requireSquare_of_ne (uneven : m.rows ≠ m.cols) (problem : Nat → Nat → ShapeProblem) :
    m.stored.requireSquare problem = refuse (problem m.rows m.cols) := by
  rw [Columns.requireSquare, Columns.isSquare, stored_rows, stored_cols,
    if_neg (by simpa using uneven)]

/-- What asks for a square shape refuses any other one and works on the grid of a square one. -/
theorem mirrors_ifSquare {α β : Type} {view : α → β} {problem : Nat → Nat → ShapeProblem}
    {f : Grid m.cols m.cols → Except Fault α} (f' : Columns → Checked β)
    (refuses : m.stored.requireSquare problem = refuse (problem m.rows m.cols) →
      f' m.stored = refuse (problem m.rows m.cols))
    (square : ∀ g : Grid m.cols m.cols, Mirrors view (f' g.stored) (f g)) :
    Mirrors view (f' m.stored) (m.ifSquare problem f) := by
  obtain ⟨rows, cols, grid, pos⟩ := m
  rw [ifSquare]
  by_cases same : rows = cols
  · subst same
    rw [dif_pos rfl]
    exact square grid
  · rw [dif_neg same, refuses (requireSquare_of_ne _ same problem)]
    exact mirrors_error view _

/-- Stored columns are made triangular like the matrix. -/
theorem mirrors_makeTriangular : Mirrors stored m.stored.makeTriangular m.makeTriangular := by
  refine m.mirrors_ifSquare Columns.makeTriangular (fun refused => ?_) fun g =>
    (g.mirrors_makeTriangular m.cols_pos).map_right fun _ => rfl
  rw [Columns.makeTriangular, refused]
  rfl

/-- The determinant of stored columns by triangular form is that of the matrix. -/
theorem mirrors_determinantTriangular :
    Mirrors id m.stored.determinantTriangular m.determinantTriangular := by
  refine m.mirrors_ifSquare Columns.determinantTriangular (fun refused => ?_) fun g =>
    g.mirrors_determinantTriangular m.cols_pos
  rw [Columns.determinantTriangular, refused]
  rfl

/-- The determinant of stored columns by expansion is that of the matrix. -/
theorem mirrors_determinantCofactor :
    Mirrors id m.stored.determinantCofactor m.determinantCofactor := by
  refine m.mirrors_ifSquare Columns.determinantCofactor (fun refused => ?_) fun g =>
    g.mirrors_determinantCofactor m.cols_pos
  rw [Columns.determinantCofactor, refused]
  rfl

/-- The determinant of stored columns takes the path that the entries of the matrix decide. -/
theorem mirrors_determinant : Mirrors id m.stored.determinant m.determinant := by
  refine m.mirrors_ifSquare Columns.determinant (fun refused => ?_) fun g =>
    g.mirrors_determinant m.cols_pos
  rw [Columns.determinant, Columns.determinantTriangular, Columns.determinantCofactor, refused]
  split <;> rfl

/-- The characteristic polynomial of stored columns is that of the matrix. -/
theorem mirrors_characteristicPolynomial (symbol : String) :
    Mirrors id (m.stored.characteristicPolynomial symbol) (m.characteristicPolynomial symbol) := by
  refine m.mirrors_ifSquare (Columns.characteristicPolynomial · symbol) (fun refused => ?_) fun g =>
    g.mirrors_characteristicPolynomial m.cols_pos symbol
  rw [Columns.characteristicPolynomial, refused]
  rfl

/-- Stored columns are inverted like the matrix, or refused for the same reason. -/
theorem mirrors_invert : Mirrors stored m.stored.invert m.invert := by
  refine m.mirrors_ifSquare Columns.invert (fun refused => ?_) fun g =>
    (g.mirrors_invert m.cols_pos).map_right fun _ => rfl
  rw [Columns.invert, refused]
  rfl

/-- A system with stored columns has the solution of the matrix, or is refused for the same reason.
-/
theorem mirrors_solve (right : List Value) :
    Mirrors id (m.stored.solve right) (m.solve right) := by
  refine m.mirrors_ifSquare (Columns.solve · right) (fun refused => ?_) fun g => ?_
  · rw [Columns.solve, refused]
    rfl
  · split
    · next fits => exact g.mirrors_solve m.cols_pos fits _
    · next uneven =>
      rw [Columns.solve, g.stored_requireSquare m.cols_pos, ok_bind, g.stored_rows m.cols_pos,
        if_neg uneven]
      exact mirrors_error id _

end ValueMatrix

end Reckon
