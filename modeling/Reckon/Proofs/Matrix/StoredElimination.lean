import Reckon.Proofs.Matrix.StoredOperations

/-!
# Elimination on stored columns

The algorithms that go through rows and columns by their indices stay inside of what is stored: each
of them mirrors the one on grids, in which an index cannot be outside.
-/

namespace Reckon

/-- The indices from `start` on, below `n`. -/
theorem map_val_filter_finRange (n start : Nat) :
    ((List.finRange n).filter fun i => start ≤ i.val).map Fin.val =
      List.range' start (n - start) := by
  have indices : ((List.finRange n).filter fun i => start ≤ i.val).map Fin.val =
      (List.range n).filter (start ≤ ·) := by
    rw [← List.map_coe_finRange_eq_range, List.filter_map]
    rfl
  rw [indices]
  rcases Nat.le_total n start with none | some
  · rw [Nat.sub_eq_zero_of_le none, List.range'_zero, List.filter_eq_nil_iff]
    intro i mem
    have below := List.mem_range.1 mem
    rw [decide_eq_true_eq]
    omega
  · obtain ⟨more, rfl⟩ := Nat.exists_eq_add_of_le some
    have first : (List.range start).filter (start ≤ ·) = [] := by
      rw [List.filter_eq_nil_iff]
      intro i mem
      rw [decide_eq_true_eq]
      exact Nat.not_le_of_lt (List.mem_range.1 mem)
    have last : (List.range' start more).filter (start ≤ ·) = List.range' start more := by
      rw [List.filter_eq_self]
      intro i mem
      rw [decide_eq_true_eq]
      exact (List.mem_range'_1.1 mem).1
    rw [Nat.add_sub_cancel_left, List.range_eq_range', ← List.range'_append_1, Nat.zero_add,
      ← List.range_eq_range', List.filter_append, first, last, List.nil_append]

/-- A search that stays inside finds what a search without accesses finds. -/
theorem findM?_map_eq {ι κ : Type} {index : ι → κ} {p : κ → Checked Bool} {q : ι → Bool}
    (inside : ∀ i, p (index i) = .ok (q i)) (is : List ι) :
    (is.map index).findM? p = .ok ((is.find? q).map index) := by
  induction is with
  | nil => rfl
  | cons i is ih =>
    rw [List.map_cons, List.findM?, inside, ok_bind, List.find?_cons]
    cases q i with
    | true => rfl
    | false => exact ih

namespace Grid

variable {rows cols : Nat}

/-- The pivot search on stored columns finds the row that the search on the grid finds. -/
theorem stored_findPivot? (g : Grid rows cols) (j : Fin cols) (start : Nat) :
    g.stored.findPivot? j start = .ok ((g.findPivot? j start).map Fin.val) := by
  have inside : ∀ i : Fin rows, (do .ok !(← g.stored.entry i j).isZero : Checked Bool) =
      .ok !(g.entry i j).isZero := by
    intro i
    rw [stored_entry, ok_bind]
  rw [Columns.findPivot?, g.stored_rows j.pos, ← map_val_filter_finRange, findM?_map_eq inside,
    List.find?_filter, findPivot?]
  simp only [Bool.decide_and, Bool.decide_eq_true]

/-- The pivot of stored columns is scaled to one like that of the grid, or left out alike. -/
theorem mirrors_normalizePivot (g : Grid rows cols) (i : Fin rows) (j : Fin cols) :
    Mirrors (Option.map stored) (g.stored.normalizePivot i j) (g.normalizePivot i j) := by
  rw [Columns.normalizePivot, stored_findPivot?, ok_bind, normalizePivot]
  cases g.findPivot? j i with
  | none => exact mirrors_ok (Option.map stored) none
  | some pivot =>
    simp only [Option.map_some, g.finished_swapRows j.pos, ok_bind, stored_entry]
    refine mirrors_reported_bind fun reciprocal => ?_
    rw [stored_scaleRow _ j.pos]
    refine (mirrors_finished _).bind fun scaled => ?_
    exact (mirrors_set scaled i j .one).map fun _ => rfl

/-- A stored entry is cleared like an entry of the grid. -/
theorem mirrors_clearEntry (pivot : Fin rows) (j : Fin cols) (g : Grid rows cols) (i : Fin rows) :
    Mirrors stored (Columns.clearEntry pivot j g.stored i) (clearEntry pivot j g i) := by
  rw [Columns.clearEntry, clearEntry]
  by_cases same : i = pivot
  · rw [if_pos (congrArg Fin.val same), if_pos (by simp [same])]
    exact mirrors_ok stored g
  · rw [if_neg fun equal => same (Fin.ext equal), stored_entry, ok_bind]
    by_cases clear : (g.entry i j).isZero
    · rw [if_pos clear, if_pos (by simp [clear])]
      exact mirrors_ok stored g
    · rw [if_neg clear, if_neg (by simp [clear, same]), stored_addScaledRow _ j.pos]
      exact (mirrors_finished _).bind fun added => mirrors_set added i j .zero

/-- The rows that a pivot clears are the rows below it, or all rows, by their numbers. -/
theorem map_val_targets (below : Bool) (pivot : Fin rows) :
    (targets below pivot).map Fin.val =
      List.range' (if below then pivot.val + 1 else 0)
        (rows - if below then pivot.val + 1 else 0) := by
  rw [← map_val_filter_finRange, targets]
  refine congrArg (List.map Fin.val) (List.filter_congr fun i _ => ?_)
  cases below with
  | false => simp
  | true => exact decide_eq_decide.2 Nat.succ_le_iff.symm

/-- The reduction of stored columns follows the reduction of the grid, column after column. -/
theorem mirrors_reduceColumns (below : Bool) (columns : List (Fin cols)) (lead : Nat)
    (g : Grid rows cols) :
    Mirrors stored (Columns.reduceColumns below rows (columns.map Fin.val) lead g.stored)
      (reduceColumns below columns lead g) := by
  induction columns generalizing lead g with
  | nil => exact mirrors_ok stored g
  | cons j columns ih =>
    rw [List.map_cons, Columns.reduceColumns, reduceColumns]
    by_cases inside : lead < rows
    · rw [if_neg (Nat.not_le_of_lt inside), dif_pos inside,
        g.mirrors_normalizePivot ⟨lead, inside⟩ j]
      cases g.normalizePivot ⟨lead, inside⟩ j with
      | error fault => exact mirrors_error stored fault
      | ok pivoted =>
        cases pivoted with
        | none => exact ih lead g
        | some g =>
          -- The rows that are cleared are the same ones, given by their indices.
          have cleared := mirrors_foldlM (mirrors_clearEntry ⟨lead, inside⟩ j)
            (targets below ⟨lead, inside⟩) g
          rw [map_val_targets] at cleared
          rw [Mirrors] at cleared
          change Mirrors stored ((List.range' _ _).foldlM _ g.stored >>= _) _
          rw [cleared]
          dsimp only
          cases (targets below ⟨lead, inside⟩).foldlM (clearEntry ⟨lead, inside⟩ j) g with
          | error fault => exact mirrors_error stored fault
          | ok g => exact ih (lead + 1) g
    · rw [if_pos (Nat.le_of_not_lt inside), dif_neg inside]
      exact mirrors_ok stored g

/-- A reduction goes through all columns, and then its entries are rounded. -/
theorem mirrors_reduced (below : Bool) (g : Grid rows cols) (pos : 0 < cols) :
    Mirrors stored (do .ok (← Columns.reduceColumns below g.stored.rows
        (List.range g.stored.cols) 0 g.stored).prettify)
      ((reduceColumns below (List.finRange cols) 0 g).map prettify) := by
  rw [g.stored_rows pos, stored_cols, ← List.map_coe_finRange_eq_range]
  exact (mirrors_reduceColumns below (List.finRange cols) 0 g).map stored_prettify

/-- Stored columns are reduced to the reduced echelon form of the grid. -/
theorem mirrors_rowReduce (g : Grid rows cols) (pos : 0 < cols) :
    Mirrors stored g.stored.rowReduce g.rowReduce :=
  g.mirrors_reduced false pos

/-- Stored columns are brought to the echelon form of the grid. -/
theorem mirrors_echelonForm (g : Grid rows cols) (pos : 0 < cols) :
    Mirrors stored g.stored.echelonForm g.echelonForm :=
  g.mirrors_reduced true pos

/-! ## Square grids -/

variable {n : Nat}

/-- A square grid is stored with as many columns as rows. -/
theorem stored_requireSquare (g : Grid n n) (pos : 0 < n) (problem : Nat → Nat → ShapeProblem) :
    g.stored.requireSquare problem = .ok () := by
  rw [Columns.requireSquare, Columns.isSquare, g.stored_rows pos, stored_cols, beq_self_eq_true,
    if_pos rfl]

/-- A stored entry below the pivot is cleared like that of the grid. -/
theorem mirrors_clearBelow (k : Fin n) (reciprocal : Value) (g : Grid n n) (i : Fin n) :
    Mirrors stored (Columns.clearBelow k reciprocal g.stored i) (clearBelow k reciprocal g i) := by
  rw [Columns.clearBelow, clearBelow, stored_entry, ok_bind]
  by_cases clear : (g.entry i k).isZero
  · rw [if_pos clear, if_pos clear]
    exact mirrors_set g i k .zero
  · rw [if_neg clear, if_neg clear]
    refine mirrors_reported_bind fun quotient => ?_
    rw [stored_addScaledRow _ k.pos]
    exact (mirrors_finished _).bind fun added => mirrors_set added i k .zero

/-- A stored column is cleared below its pivot like that of the grid. -/
theorem mirrors_clearColumnBelow (g : Grid n n) (k : Fin n) :
    Mirrors stored (g.stored.clearColumnBelow n k) (g.clearColumnBelow k) := by
  rw [Columns.clearColumnBelow, clearColumnBelow, stored_entry, ok_bind]
  refine mirrors_reported_bind fun reciprocal => ?_
  have rows := map_val_targets true k
  rw [if_pos rfl] at rows
  rw [← rows, ← List.map_reverse]
  exact mirrors_foldlM (mirrors_clearBelow k reciprocal) _ g

/-- One step of the triangular form does the same on stored columns. -/
theorem mirrors_triangularStep (g : Grid n n) (k : Fin n) :
    Mirrors stored (Columns.triangularStep n g.stored k) (triangularStep g k) := by
  rw [Columns.triangularStep, triangularStep, stored_entry, ok_bind]
  by_cases clear : (g.entry k k).isZero
  · rw [if_pos clear, if_pos clear, stored_findPivot?, ok_bind]
    cases g.findPivot? k (k.val + 1) with
    | none => exact mirrors_ok stored g
    | some pivot =>
      simp only [Option.map_some, g.finished_swapRows k.pos, ok_bind]
      rw [stored_scaleRow _ k.pos]
      exact (mirrors_finished _).bind fun scaled => mirrors_clearColumnBelow scaled k
  · rw [if_neg clear, if_neg clear]
    exact mirrors_clearColumnBelow g k

/-- Stored columns are made triangular like the grid. -/
theorem mirrors_makeTriangular (g : Grid n n) (pos : 0 < n) :
    Mirrors stored g.stored.makeTriangular g.makeTriangular := by
  rw [Columns.makeTriangular, stored_requireSquare g pos, ok_bind, g.stored_rows pos,
    ← List.map_coe_finRange_eq_range]
  exact mirrors_foldlM mirrors_triangularStep (List.finRange n) g

/-- The determinant of stored columns by triangular form is that of the grid. -/
theorem mirrors_determinantTriangular (g : Grid n n) (pos : 0 < n) :
    Mirrors id g.stored.determinantTriangular g.determinantTriangular := by
  rw [Columns.determinantTriangular, stored_requireSquare g pos, ok_bind]
  refine (g.mirrors_makeTriangular pos).bind fun triangular => ?_
  rw [triangular.stored_rows pos, ← List.map_coe_finRange_eq_range]
  refine Mirrors.bind (mirrors_foldlM (fun product i => ?_) (List.finRange n) Value.one)
    fun product => mirrors_ok id (product.rounded displayPlaces)
  rw [stored_entry, ok_bind]
  exact mirrors_reported (product.mul (triangular.entry i i))

/-! ## Expansion and its users -/

/-- The expansion of stored columns along a column is that of the grid, minor by minor. -/
theorem mirrors_expand : {n : Nat} → (g : Grid n n) → 0 < n →
    Mirrors id (Columns.expand n g.stored) g.expand
  | 1, g, _ => by
    rw [Columns.expand, expand]
    exact g.stored_entry 0 0
  | 2, g, _ => by
    have entry : ∀ i j : Fin 2, g.stored.entry i j = .ok (g.entry i j) := g.stored_entry
    have topLeft : g.stored.entry 0 0 = .ok (g.entry 0 0) := entry 0 0
    have topRight : g.stored.entry 0 1 = .ok (g.entry 0 1) := entry 0 1
    have bottomLeft : g.stored.entry 1 0 = .ok (g.entry 1 0) := entry 1 0
    have bottomRight : g.stored.entry 1 1 = .ok (g.entry 1 1) := entry 1 1
    simp only [Columns.expand, expand, topLeft, topRight, bottomLeft, bottomRight, ok_bind]
    exact mirrors_reported_bind fun ad => mirrors_reported_bind fun bc => mirrors_reported (ad.sub bc)
  | n + 3, g, _ => by
    rw [Columns.expand, expand, ← List.map_coe_finRange_eq_range]
    refine Mirrors.bind (mirrors_foldlM (fun total j => ?_) (List.finRange (n + 3)) none)
      fun total => mirrors_ok id (total.getD .zero)
    have top : g.stored.entry 0 j = .ok (g.entry 0 j) := g.stored_entry 0 j
    have minor : g.stored.minor 0 j = (g.minor 0 j).stored :=
      g.stored_minor (Nat.succ_pos _) 0 j
    simp only [top, minor, ok_bind]
    split
    · exact mirrors_ok id total
    · refine (mirrors_expand (g.minor 0 j) (Nat.succ_pos _)).bind fun cofactor => ?_
      refine mirrors_reported_bind fun term => ?_
      cases addTerm total j term with
      | error fault => exact mirrors_error id fault
      | ok sum => exact mirrors_ok id (some sum)

/-- The determinant of stored columns by expansion is that of the grid. -/
theorem mirrors_determinantCofactor (g : Grid n n) (pos : 0 < n) :
    Mirrors id g.stored.determinantCofactor g.determinantCofactor := by
  -- Without rows the expansion is not asked for, so that its value there does not matter.
  rw [Columns.determinantCofactor, stored_requireSquare g pos, ok_bind, g.stored_rows pos,
    if_neg pos.ne']
  exact (g.mirrors_expand pos).map fun _ => rfl

/-- The determinant of stored columns takes the path that the entries of the grid decide. -/
theorem mirrors_determinant (g : Grid n n) (pos : 0 < n) :
    Mirrors id g.stored.determinant g.determinant := by
  rw [Columns.determinant, determinant, stored_isNumeric]
  split
  · exact g.mirrors_determinantTriangular pos
  · exact g.mirrors_determinantCofactor pos

/-- The characteristic polynomial of stored columns is that of the grid. -/
theorem mirrors_characteristicPolynomial (g : Grid n n) (pos : 0 < n) (symbol : String) :
    Mirrors id (g.stored.characteristicPolynomial symbol) (g.characteristicPolynomial symbol) := by
  rw [Columns.characteristicPolynomial, stored_requireSquare g pos, ok_bind, g.stored_rows pos,
    ← List.map_coe_finRange_eq_range]
  refine Mirrors.bind (mirrors_foldlM (fun g i => ?_) (List.finRange n) g)
    fun shifted => shifted.mirrors_determinantCofactor pos
  rw [stored_entry, ok_bind]
  exact mirrors_reported_bind fun shifted => mirrors_set g i i shifted

/-- Stored columns are refused as singular exactly when the grid is. -/
theorem mirrors_refuseSingular (g : Grid n n) (pos : 0 < n) :
    Mirrors id g.stored.refuseSingular g.refuseSingular := by
  refine (g.mirrors_determinantTriangular pos).bind fun determinant => ?_
  change Mirrors id (if determinant.isZero then _ else _) _
  split
  · exact mirrors_error id .singularMatrix
  · exact mirrors_ok id ()

/-! ## Inverses and systems -/

/-- Stored columns are inverted like the grid. -/
theorem mirrors_invert (g : Grid n n) (pos : 0 < n) :
    Mirrors stored g.stored.invert g.invert := by
  have wide : 0 < n + n := by omega
  rw [Columns.invert, stored_requireSquare g pos, ok_bind, stored_isNumeric, g.stored_rows pos,
    stored_identity pos, invert]
  by_cases numeric : g.isNumeric
  · rw [if_pos numeric, if_pos numeric]
    refine (g.mirrors_refuseSingular pos).bind fun _ => ?_
    rw [ok_bind, g.stored_augment _ pos pos, ok_bind]
    refine (mirrors_rowReduce _ wide).bind fun reduced => ?_
    rw [reduced.stored_columnsFrom (by omega)]
    exact mirrors_ok stored (reduced.dropColumns n)
  · rw [if_neg numeric, if_neg numeric]
    exact mirrors_error stored _

/-- A system with stored columns has the solution of the grid. -/
theorem mirrors_solve (g : Grid n n) (pos : 0 < n) {right : List Value} (fits : right.length = n)
    (h : ∀ column ∈ [right], column.length = n) :
    Mirrors id (g.stored.solve right) (g.solve (ValueMatrix.gridOfColumns n [right] h)) := by
  have beside : Columns.ofColumns [right] = .ok (ValueMatrix.gridOfColumns n [right] h).stored :=
    ofColumns_of_eq Nat.one_pos (ValueMatrix.columnLists_gridOfColumns h).symm
  have read : ∀ reduced : Grid n (n + 1), Mirrors id (reduced.stored.column n)
      (.ok ((List.finRange n).map fun i => reduced.entry i (Fin.last n))) := by
    intro reduced
    have last := reduced.stored_column (Fin.last n)
    rw [List.ofFn_eq_map] at last
    exact last
  have solved : Mirrors id
      (do
        let augmented ← g.stored.augment (← Columns.ofColumns [right])
        (← augmented.rowReduce).column g.stored.cols)
      (do
        let reduced ← (g.augment (ValueMatrix.gridOfColumns n [right] h)).rowReduce
        .ok ((List.finRange n).map fun i => reduced.entry i (Fin.last n))) := by
    rw [beside, ok_bind, g.stored_augment _ pos Nat.one_pos, ok_bind, stored_cols]
    exact (mirrors_rowReduce _ (Nat.succ_pos n)).bind read
  rw [Columns.solve, stored_requireSquare g pos, ok_bind, g.stored_rows pos, if_pos fits,
    stored_isNumeric, solve]
  by_cases numeric : g.isNumeric
  · rw [if_pos numeric, if_pos numeric]
    exact (g.mirrors_refuseSingular pos).bind fun _ => solved
  · rw [if_neg numeric, if_neg numeric]
    exact solved

end Grid

end Reckon
