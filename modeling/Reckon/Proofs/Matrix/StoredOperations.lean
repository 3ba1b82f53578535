import Mathlib.Data.List.FinRange
import Mathlib.Data.List.InsertIdx
import Reckon.Proofs.Matrix.StoredColumns

/-!
# Operations on stored columns

An operation on the columns of a matrix does what the operation on the matrix does: it ends with the
columns of the same result, or with the same fault, and no access goes outside.
-/

namespace Reckon

/-! ## Outcomes side by side -/

/-- The stored computation ends like the other one, with the view of its result or with its fault. -/
def Mirrors {α β : Type} (view : α → β) (stored : Checked β) (typed : Except Fault α) : Prop :=
  stored = reported (typed.map view)

section

variable {α β γ δ : Type} {view : α → β} {view' : γ → δ} {stored : Checked β}
  {typed : Except Fault α}

/-- A value is seen as its view. -/
theorem mirrors_ok (view : α → β) (a : α) : Mirrors view (.ok (view a)) (.ok a) :=
  rfl

/-- A fault is the same fault on both sides. -/
theorem mirrors_error (view : α → β) (fault : Fault) :
    Mirrors view (.error (.fault fault)) (.error fault) :=
  rfl

/-- What is reported stands for itself. -/
theorem mirrors_reported (x : Except Fault α) : Mirrors id (reported x) x := by
  cases x <;> rfl

/-- An outcome that is seen as it is has been reported. -/
theorem Mirrors.eq_reported {stored : Checked α} (h : Mirrors id stored typed) :
    stored = reported typed := by
  rw [h]
  cases typed <;> rfl

/-- What stands for an outcome never goes outside. -/
theorem Mirrors.ne_outside (h : Mirrors view stored typed) : stored ≠ .error .outside := by
  rw [h]
  cases typed <;> exact nofun

/-- Outcomes one after the other stand for each other if the parts do. -/
theorem Mirrors.bind {next : α → Except Fault γ} {next' : β → Checked δ}
    (h : Mirrors view stored typed) (after : ∀ a, Mirrors view' (next' (view a)) (next a)) :
    Mirrors view' (stored >>= next') (typed >>= next) := by
  rw [h]
  cases typed with
  | error fault => rfl
  | ok a => exact after a

/-- What follows an access that is inside. -/
theorem ok_bind (b : β) (next : β → Checked δ) : (Except.ok b : Checked β) >>= next = next b :=
  rfl

/-- What accesses nothing comes first in both. -/
theorem mirrors_reported_bind {x : Except Fault α} {next : α → Except Fault γ}
    {next' : α → Checked δ} (after : ∀ a, Mirrors view' (next' a) (next a)) :
    Mirrors view' (reported x >>= next') (x >>= next) := by
  cases x with
  | error fault => rfl
  | ok a => exact after a

/-- A function of the result stands for one that does the same to its view. -/
theorem Mirrors.map {f : α → γ} {f' : β → δ} (h : Mirrors view stored typed)
    (same : ∀ a, f' (view a) = view' (f a)) : Mirrors view' (stored.map f') (typed.map f) := by
  rw [h]
  cases typed with
  | error fault => rfl
  | ok a => exact congrArg Except.ok (same a)

/-- The result under another name, with the same view. -/
theorem Mirrors.map_right {f : α → γ} {view' : γ → β} (h : Mirrors view stored typed)
    (same : ∀ a, view' (f a) = view a) : Mirrors view' stored (typed.map f) := by
  rw [h]
  cases typed with
  | error fault => rfl
  | ok a => exact congrArg Except.ok (same a).symm

/-- A loop mirrors a loop if its steps do. -/
theorem mirrors_foldlM {ι κ : Type} {index : ι → κ} {f : α → ι → Except Fault α}
    {f' : β → κ → Checked β} (step : ∀ a i, Mirrors view (f' (view a) (index i)) (f a i))
    (is : List ι) (a : α) :
    Mirrors view ((is.map index).foldlM f' (view a)) (is.foldlM f a) := by
  induction is generalizing a with
  | nil => exact mirrors_ok view a
  | cons i is ih =>
    rw [List.map_cons, List.foldlM_cons, List.foldlM_cons]
    exact (step a i).bind ih

/-- Changes one after the other mirror such changes: they stop at the same item. -/
theorem changeInTurn_map {f : α → Except Fault α} {f' : β → Checked β}
    (step : ∀ a, Mirrors view (f' (view a)) (f a)) (as : List α) :
    changeInTurn f' (as.map view) =
      ((changeInTurn f as).1.map view, (changeInTurn f as).2.map .fault) := by
  induction as with
  | nil => rfl
  | cons a as ih =>
    rw [List.map_cons, changeInTurn, changeInTurn, step a]
    cases f a with
    | error fault => rfl
    | ok changed => simp only [reported, Except.map, Except.mapError, ih, List.map_cons]

/-- Computing all items of a list mirrors computing those of a vector. -/
theorem mirrors_ofFnM {n : Nat} {f : Fin n → Except Fault α} {f' : Fin n → Checked β}
    (step : ∀ i, Mirrors view (f' i) (f i)) :
    Mirrors (fun v : Vector α n => v.toList.map view) ((List.finRange n).mapM f')
      (Vector.ofFnM f) := by
  -- Both sides are lists here, so that the induction can take the first item off.
  have lists : Mirrors (List.map view) ((List.finRange n).mapM f') (List.ofFnM f) := by
    induction n with
    | zero =>
      rw [List.finRange_zero, List.ofFnM_zero]
      exact mirrors_ok _ []
    | succ n ih =>
      rw [List.finRange_succ, List.mapM_cons, List.mapM_map, List.ofFnM_succ]
      refine (step 0).bind fun a => (ih fun i => step i.succ).bind fun as => ?_
      exact mirrors_ok (List.map view) (a :: as)
  have same : Vector.toList <$> Vector.ofFnM f = List.ofFnM f := Vector.toList_ofFnM
  rw [← same] at lists
  rw [Mirrors] at lists ⊢
  rw [lists]
  cases Vector.ofFnM f <;> rfl

end

/-! ## Accesses inside -/

section

variable {α : Type} {n : Nat}

/-- The items of a vector as a list. -/
theorem toList_eq_ofFn (v : Vector α n) : v.toList = List.ofFn v.get := by
  rw [← Vector.toList_ofFn]
  congr 1
  exact Vector.ofFn_getElem.symm

/-- Reading an item of the list of a vector never goes outside. -/
theorem itemAt_toList (v : Vector α n) (i : Fin n) : itemAt v.toList i = .ok (v.get i) := by
  have inside : v.toList[i.val]? = some (v.get i) := by
    rw [Vector.getElem?_toList, Vector.getElem?_eq_getElem i.isLt]
    rfl
  rw [itemAt, inside]

/-- Writing an item of the list of a vector never goes outside. -/
theorem setItem_toList (v : Vector α n) (i : Fin n) (x : α) :
    setItem v.toList i x = .ok (v.set i x i.isLt).toList := by
  rw [setItem, Vector.length_toList, if_pos i.isLt, Vector.toList_set]

/-- Swapping an item with itself changes nothing. -/
theorem swap_same (v : Vector α n) (a : Fin n) : v.swap a a a.isLt a.isLt = v := by
  apply Vector.ext
  intro i inside
  rw [Vector.getElem_swap]
  split
  · next last => simp only [last]
  · rfl

/-- Swapping two items of the list of a vector never goes outside. -/
theorem swapItems_toList (v : Vector α n) (a b : Fin n) :
    swapItems v.toList a b = .ok (v.swap a b a.isLt b.isLt).toList := by
  have written : setItem (v.set a (v.get b) a.isLt).toList b (v.get a) =
      .ok (v.swap a b a.isLt b.isLt).toList := by
    rw [setItem_toList, Vector.toList_swap, Vector.toList_set, Vector.toList_set]
    rfl
  simp only [swapItems, itemAt_toList, setItem_toList, bind, Except.bind, written]

/-- What is read from lists of vectors one after the other, if it is always inside. -/
theorem mapM_eq_map {β : Type} {f : α → Checked β} {F : α → β} {xs : List α}
    (inside : ∀ x ∈ xs, f x = .ok (F x)) : xs.mapM f = .ok (xs.map F) := by
  induction xs with
  | nil => rfl
  | cons x xs ih =>
    rw [List.mapM_cons, inside x List.mem_cons_self,
      ih fun y mem => inside y (List.mem_cons_of_mem x mem)]
    rfl

end

namespace Grid

variable {rows cols : Nat}

/-- The columns of a grid as they are stored. -/
def stored (g : Grid rows cols) : Columns :=
  ⟨g.columnLists⟩

/-- All columns are stored. -/
theorem stored_cols (g : Grid rows cols) : g.stored.cols = cols := by
  rw [Columns.cols, stored, columnLists, List.length_map, Vector.length_toList]

/-- With a column there are as many stored rows as the grid has. -/
theorem stored_rows (g : Grid rows cols) (pos : 0 < cols) : g.stored.rows = rows := by
  have first : g.stored.lists.head? = some (g.columns.get ⟨0, pos⟩).toList := by
    rw [List.head?_eq_getElem?, stored, columnLists, List.getElem?_map, Vector.getElem?_toList,
      Vector.getElem?_eq_getElem pos]
    rfl
  rw [Columns.rows, first]
  exact Vector.length_toList

/-- Each stored column is a column of the grid. -/
theorem itemAt_columnLists (g : Grid rows cols) (j : Fin cols) :
    itemAt g.columnLists j = .ok (g.columns.get j).toList := by
  have inside : g.columnLists[j.val]? = some (g.columns.get j).toList := by
    rw [columnLists, List.getElem?_map, Vector.getElem?_toList,
      Vector.getElem?_eq_getElem j.isLt]
    rfl
  rw [itemAt, inside]

/-- Reading a stored entry never goes outside. -/
theorem stored_entry (g : Grid rows cols) (i : Fin rows) (j : Fin cols) :
    g.stored.entry i j = .ok (g.entry i j) := by
  simp only [Columns.entry, stored, itemAt_columnLists, bind, Except.bind]
  exact itemAt_toList (g.columns.get j) i

/-- Writing a stored entry never goes outside. -/
theorem stored_setEntry (g : Grid rows cols) (i : Fin rows) (j : Fin cols) (value : Value) :
    g.stored.setEntry i j value = .ok (g.set i j value).stored := by
  have lists : (g.set i j value).columnLists =
      g.columnLists.set j ((g.columns.get j).set i value i.isLt).toList := by
    rw [columnLists, set, Vector.toList_set, List.map_set]
    rfl
  have written : setItem g.columnLists j ((g.columns.get j).set i value i.isLt).toList =
      .ok (g.set i j value).columnLists := by
    rw [setItem, lists, columnLists, List.length_map, Vector.length_toList, if_pos j.isLt]
  simp only [Columns.setEntry, stored, itemAt_columnLists, setItem_toList, bind, Except.bind, written]

/-- Positions of the grid pass the check. -/
theorem stored_checkBounds (g : Grid rows cols) (i : Fin rows) (j : Fin cols) :
    g.stored.checkBounds i j = .ok () := by
  rw [Columns.checkBounds, g.stored_rows j.pos, stored_cols, if_neg (by omega)]

/-- Positions outside of the grid are refused by the check. -/
theorem checkBounds_of_outside (g : Grid rows cols) (pos : 0 < cols) {row col : Nat}
    (outside : ¬ (row < rows ∧ col < cols)) :
    g.stored.checkBounds row col = refuse (.entryOutside row col rows cols) := by
  rw [Columns.checkBounds, g.stored_rows pos, stored_cols, if_pos (by omega)]

/-- All stored entries are numbers if those of the grid are. -/
theorem stored_isNumeric (g : Grid rows cols) : g.stored.isNumeric = g.isNumeric := by
  simp only [Columns.isNumeric, stored, columnLists, isNumeric, List.all_map, Function.comp_def,
    Vector.all_toList]

/-- A stored entry is set as that of the grid. -/
theorem stored_set (g : Grid rows cols) (i : Fin rows) (j : Fin cols) (value : Value) :
    g.stored.set i j value = ((g.set i j value).stored, none) := by
  simp only [Columns.set, stored_checkBounds, stored_setEntry, bind, Except.bind]

/-! ## Changes in place -/

/-- A change as it is made on the stored columns. -/
def storedChange (changed : Grid rows cols × Option Fault) : Columns.Changed :=
  (changed.1.stored, changed.2.map .fault)

/-- A change of stored columns stands for that of the grid. -/
theorem mirrors_finished (changed : Grid rows cols × Option Fault) :
    Mirrors stored (Columns.finished (storedChange changed)) (orFault changed) := by
  obtain ⟨g, _ | fault⟩ := changed
  · exact mirrors_ok stored g
  · exact mirrors_error stored fault

/-- Setting a stored entry stands for setting that of the grid. -/
theorem mirrors_set (g : Grid rows cols) (i : Fin rows) (j : Fin cols) (value : Value) :
    Mirrors stored (Columns.finished (g.stored.set i j value)) (.ok (g.set i j value)) := by
  rw [stored_set]
  exact mirrors_ok stored (g.set i j value)

/-- The check looks at the first column only; that the others have the row too is what the shape of a
grid adds. -/
theorem stored_changeColumns (g : Grid rows cols) (pos : 0 < cols) {row : Nat} (inside : row < rows)
    {f : Vector Value rows → Except Fault (Vector Value rows)}
    {f' : List Value → Checked (List Value)}
    (step : ∀ column, Mirrors Vector.toList (f' column.toList) (f column)) :
    g.stored.changeColumns row f' = storedChange (g.changeColumns f) := by
  have checked : g.stored.checkBounds row 0 = .ok () := g.stored_checkBounds ⟨row, inside⟩ ⟨0, pos⟩
  rw [Columns.changeColumns, checked]
  change ((⟨(changeInTurn f' (g.columns.toList.map Vector.toList)).1⟩ : Columns),
    (changeInTurn f' (g.columns.toList.map Vector.toList)).2) = _
  rw [changeInTurn_map step]
  rfl

/-- Swapping stored rows is swapping those of the grid. -/
theorem stored_swapRows (g : Grid rows cols) (pos : 0 < cols) (a b : Fin rows) :
    g.stored.swapRows a b = ((g.swapRows a b).stored, none) := by
  have inside : max a.val b.val < rows := max_lt a.isLt b.isLt
  have step : ∀ column : Vector Value rows, Mirrors Vector.toList
      (if a.val = b.val then .ok column.toList else swapItems column.toList a b)
      (.ok (column.swap a b a.isLt b.isLt)) := by
    intro column
    split
    · next same =>
      rw [Fin.ext same, swap_same]
      exact mirrors_ok _ _
    · rw [swapItems_toList]
      exact mirrors_ok _ _
  rw [Columns.swapRows, g.stored_changeColumns pos inside step, changeColumns_of_ok fun _ _ => rfl]
  rfl

/-- Swapping stored rows has no fault. -/
theorem finished_swapRows (g : Grid rows cols) (pos : 0 < cols) (a b : Fin rows) :
    Columns.finished (g.stored.swapRows a b) = .ok (g.swapRows a b).stored := by
  rw [g.stored_swapRows pos]
  rfl

/-- Scaling a stored row is scaling that of the grid, also where it fails on the way. -/
theorem stored_scaleRow (g : Grid rows cols) (pos : 0 < cols) (i : Fin rows) (factor : Value) :
    g.stored.scaleRow i factor = storedChange (g.scaleRow i factor) := by
  refine g.stored_changeColumns pos i.isLt fun column => ?_
  rw [itemAt_toList, ok_bind]
  cases (column.get i).mul factor with
  | error fault => exact mirrors_error _ fault
  | ok scaled => exact setItem_toList column i scaled

/-- Adding a scaled stored row is adding that of the grid, also where it fails on the way. -/
theorem stored_addScaledRow (g : Grid rows cols) (pos : 0 < cols) (target source : Fin rows)
    (factor : Value) :
    g.stored.addScaledRow target source factor =
      storedChange (g.addScaledRow target source factor) := by
  refine g.stored_changeColumns pos (max_lt target.isLt source.isLt) fun column => ?_
  rw [itemAt_toList, itemAt_toList, ok_bind]
  cases (column.get source).mul factor with
  | error fault => exact mirrors_error _ fault
  | ok scaled =>
    simp only [reported, Except.mapError, ok_bind]
    cases (column.get target).add scaled with
    | error fault => exact mirrors_error _ fault
    | ok sum => exact setItem_toList column target sum

/-- Stored columns are shown as those of the grid. -/
theorem stored_prettify (g : Grid rows cols) : g.stored.prettify = g.prettify.stored := by
  simp only [Columns.prettify, stored, columnLists, prettify, map, Vector.toList_map, List.map_map,
    Function.comp_def]

/-! ## Shapes -/

/-- The columns of a grid that is given by its entries. -/
theorem columnLists_ofFn (f : Fin rows → Fin cols → Value) :
    (ofFn f).columnLists = List.ofFn fun j => List.ofFn fun i => f i j := by
  rw [columnLists, ofFn, Vector.toList_ofFn, List.map_ofFn]
  congr 1
  funext j
  exact Vector.toList_ofFn

/-- The columns as lists, one after the other. -/
theorem columnLists_eq_map (g : Grid rows cols) :
    g.columnLists = (List.finRange cols).map fun j => (g.columns.get j).toList := by
  rw [columnLists, toList_eq_ofFn, List.ofFn_eq_map, List.map_map]
  rfl

/-- The columns as lists of entries. -/
theorem columnLists_eq_ofFn (g : Grid rows cols) :
    g.columnLists = List.ofFn fun j => List.ofFn fun i => g.entry i j := by
  rw [columnLists_eq_map, ← List.ofFn_eq_map]
  congr 1
  funext j
  exact toList_eq_ofFn (g.columns.get j)

/-- Every column has as many entries as there are rows. -/
theorem length_of_mem_columnLists {g : Grid rows cols} {column : List Value}
    (mem : column ∈ g.columnLists) : column.length = rows := by
  obtain ⟨v, -, rfl⟩ := List.mem_map.1 mem
  exact Vector.length_toList

/-- Leaving a place out of a list that is given by its items. -/
theorem ofFn_skip {α : Type} {n : Nat} (f : Fin (n + 1) → α) (i : Fin (n + 1)) :
    (List.ofFn fun a => f (skip i a)) = (List.ofFn f).eraseIdx i := by
  apply List.ext_getElem?
  intro a
  rw [List.getElem?_eraseIdx, List.getElem?_ofFn, List.getElem?_ofFn, List.getElem?_ofFn]
  by_cases before : a < i.val
  · have inside : a < n := by omega
    have inside' : a < n + 1 := Nat.lt_succ_of_lt inside
    simp only [before, inside, inside', skip, ↓reduceIte, ↓reduceDIte, Fin.castSucc_mk]
  · by_cases inside : a < n
    · simp only [before, inside, skip, ↓reduceIte, ↓reduceDIte, Nat.add_lt_add_iff_right, Fin.succ_mk]
    · simp only [before, inside, ↓reduceIte, ↓reduceDIte, Nat.add_lt_add_iff_right]

/-- Without a column, the others are stored as they were. -/
theorem columnLists_removeColumn (g : Grid rows (cols + 1)) (j : Fin (cols + 1)) :
    (g.removeColumn j).columnLists = g.columnLists.eraseIdx j := by
  rw [removeColumn, columnLists_ofFn, columnLists_eq_ofFn, ← ofFn_skip]

/-- Without a row, each column is stored without that entry. -/
theorem columnLists_removeRow (g : Grid (rows + 1) cols) (i : Fin (rows + 1)) :
    (g.removeRow i).columnLists = g.columnLists.map fun column => column.eraseIdx i := by
  rw [removeRow, columnLists_ofFn, columnLists_eq_ofFn, List.map_ofFn]
  congr 1
  funext b
  exact ofFn_skip (fun a => g.entry a b) i

/-- Columns of a grid are taken as they are. -/
theorem ofColumns_of_eq {columns : List (List Value)} {g : Grid rows cols} (pos : 0 < cols)
    (same : columns = g.columnLists) : Columns.ofColumns columns = .ok g.stored := by
  cases columns with
  | nil =>
    have none := congrArg List.length same
    rw [columnLists, List.length_map, Vector.length_toList, List.length_nil] at none
    omega
  | cons first rest =>
    have even : ∀ column ∈ first :: rest, column.length = first.length := by
      rw [length_of_mem_columnLists (same ▸ List.mem_cons_self), same]
      exact fun column mem => length_of_mem_columnLists mem
    have found : ValueMatrix.unevenColumn? first.length (first :: rest) = none := by
      rw [ValueMatrix.unevenColumn?, Option.map_eq_none_iff, List.find?_eq_none]
      intro column mem
      rw [even column.1 (List.fst_mem_of_mem_zipIdx mem), bne_self_eq_false]
      exact Bool.false_ne_true
    rw [Columns.ofColumns, found, same]
    rfl

/-- A minor is read off the columns that are left. -/
theorem minor_of_eq {m : Columns} {row col : Nat} {g : Grid rows cols} (pos : 0 < cols)
    (same : ((m.lists.eraseIdx col).map fun column => column.eraseIdx row) = g.columnLists) :
    m.minor row col = g.stored := by
  have made := ofColumns_of_eq pos same
  rw [Columns.minor]
  split
  · next none =>
    rw [none] at made
    cases made
  · rw [made]

/-- A minor of the stored columns is that of the grid. -/
theorem stored_minor (g : Grid (rows + 1) (cols + 1)) (pos : 0 < cols) (i : Fin (rows + 1))
    (j : Fin (cols + 1)) : g.stored.minor i j = (g.minor i j).stored := by
  refine minor_of_eq pos ?_
  rw [minor, columnLists_removeColumn, columnLists_removeRow, List.eraseIdx_map]
  rfl

/-- A stored column has the entries of that of the grid. -/
theorem stored_column (g : Grid rows cols) (j : Fin cols) :
    g.stored.column j = .ok (List.ofFn fun i => g.entry i j) := by
  have found : g.columnLists[j.val]? = some (List.ofFn fun i => g.entry i j) := by
    rw [columnLists_eq_ofFn, List.getElem?_ofFn, dif_pos j.isLt]
  rw [Columns.column, stored, found]

/-- A row as a list of entries. -/
theorem row_eq_ofFn (g : Grid rows cols) (i : Fin rows) :
    g.row i = List.ofFn fun j => g.entry i j := by
  rw [row, toList_eq_ofFn, List.map_ofFn]
  rfl

/-- Reading the same index of all columns is reading a row. -/
theorem mapM_itemAt (g : Grid rows cols) (i : Fin rows) :
    (g.columnLists.mapM fun column => itemAt column i) = .ok (g.row i) := by
  rw [columnLists, List.mapM_map, row]
  exact mapM_eq_map fun column _ => itemAt_toList column i

/-! ## Grids beside each other -/

/-- Stored columns beside each other are those of the grids beside each other. -/
theorem stored_augment {more : Nat} (g : Grid rows cols) (other : Grid rows more) (pos : 0 < cols)
    (pos' : 0 < more) : g.stored.augment other.stored = .ok (g.augment other).stored := by
  rw [Columns.augment, g.stored_rows pos, other.stored_rows pos', if_pos rfl]
  simp only [stored, columnLists, augment, Vector.toList_append, List.map_append]

/-- The stored columns from one on are those of the grid from there on. -/
theorem stored_columnsFrom (g : Grid rows cols) {start : Nat} (inside : start < cols) :
    g.stored.columnsFrom start = .ok (g.dropColumns start).stored := by
  have lists : dropItems g.columnLists start = .ok (g.dropColumns start).columnLists := by
    rw [dropItems, columnLists, List.length_map, Vector.length_toList, if_pos inside.le, columnLists,
      dropColumns, Vector.toList_drop, List.map_drop]
  rw [Columns.columnsFrom, stored_cols, if_neg (Nat.not_le_of_lt inside), stored, lists, ok_bind,
    stored]

/-- The columns of the zero matrix. -/
theorem columnLists_zeros (rows cols : Nat) :
    (zeros rows cols).columnLists = List.replicate cols (List.replicate rows .zero) := by
  rw [zeros, columnLists_ofFn, List.ofFn_const, List.ofFn_const]

/-- Ones written on some places of the diagonal. -/
theorem entry_foldl_set {n : Nat} (is : List (Fin n)) (g : Grid n n) (a b : Fin n) :
    (is.foldl (fun g i => g.set i i .one) g).entry a b =
      if a = b ∧ a ∈ is then .one else g.entry a b := by
  induction is generalizing g with
  | nil => rw [List.foldl_nil, if_neg fun h => List.not_mem_nil h.2]
  | cons i is ih =>
    rw [List.foldl_cons, ih, entry_set]
    by_cases diagonal : a = b
    · subst diagonal
      by_cases later : a ∈ is
      · rw [if_pos ⟨rfl, later⟩, if_pos ⟨rfl, List.mem_cons_of_mem i later⟩]
      · rw [if_neg fun h => later h.2]
        simp only [and_self, true_and, List.mem_cons, later, or_false, eq_comm]
    · rw [if_neg fun h => diagonal h.1, if_neg fun h => diagonal (h.1.symm.trans h.2),
        if_neg fun h => diagonal h.1]

/-- The stored identity is written entry by entry without going outside. -/
theorem stored_identity {n : Nat} (pos : 0 < n) : Columns.identity n = .ok (identity n).stored := by
  have wide : max 1 (max 1 n) = n := by omega
  have start : Columns.zeros n (max 1 n) = (zeros n n).stored := by
    rw [Columns.zeros, wide, ← columnLists_zeros]
    rfl
  have written : ∀ (is : List (Fin n)) (g : Grid n n),
      (is.map Fin.val).foldlM (fun m i => Columns.setEntry m i i .one) g.stored =
        .ok (is.foldl (fun g i => g.set i i .one) g).stored := by
    intro is
    induction is with
    | nil => exact fun g => rfl
    | cons i is ih =>
      intro g
      rw [List.map_cons, List.foldlM_cons, stored_setEntry, ok_bind, ih, List.foldl_cons]
  have ones : (List.finRange n).foldl (fun g i => g.set i i .one) (zeros n n) = identity n := by
    ext a b
    rw [entry_foldl_set, identity, zeros, entry_ofFn, entry_ofFn]
    simp only [List.mem_finRange, and_true]
  rw [Columns.identity, start, ← List.map_coe_finRange_eq_range, written, ones]

/-! ## Products -/

/-- A sum of products of stored entries stands for that of the grids. -/
theorem mirrors_sumProducts {inner : Nat} (g : Grid rows inner) (h : Grid inner cols) (i : Fin rows)
    (j : Fin cols) (ks : List (Fin inner)) (total : Option Value) :
    Mirrors id (g.stored.sumProducts i total (ks.map fun k => (h.entry k j, k.val)))
      (sumProducts total (ks.map fun k => (g.entry i k, h.entry k j))) := by
  induction ks generalizing total with
  | nil => exact mirrors_ok id (total.getD .zero)
  | cons k ks ih =>
    rw [List.map_cons, List.map_cons, Columns.sumProducts, sumProducts, stored_entry, ok_bind]
    refine mirrors_reported_bind fun product => ?_
    cases total with
    | none => exact ih (some product)
    | some total => exact mirrors_reported_bind fun sum => ih (some sum)

/-- The entries of a column with their positions. -/
theorem zipIdx_toList_column (h : Grid rows cols) (j : Fin cols) :
    (h.columns.get j).toList.zipIdx = (List.finRange rows).map fun k => (h.entry k j, k.val) := by
  rw [← List.ofFn_eq_map, toList_eq_ofFn]
  apply List.ext_getElem?
  intro k
  rw [List.getElem?_zipIdx, List.getElem?_ofFn, List.getElem?_ofFn, Nat.zero_add]
  split <;> rfl

/-- The product of stored columns stands for that of the grids. -/
theorem mirrors_multiply {inner : Nat} (g : Grid rows inner) (h : Grid inner cols)
    (posInner : 0 < inner) (pos : 0 < cols) :
    Mirrors stored (g.stored.multiply h.stored) (g.multiply h) := by
  have column : ∀ j : Fin cols, Mirrors Vector.toList
      ((List.range rows).mapM fun row => g.stored.sumProducts row none (h.columns.get j).toList.zipIdx)
      (Vector.ofFnM fun i => g.productEntry h i j) := by
    intro j
    have entries := mirrors_ofFnM fun i => g.mirrors_sumProducts h i j (List.finRange inner) none
    simp only [List.map_id] at entries
    rw [zipIdx_toList_column, ← List.map_coe_finRange_eq_range, List.mapM_map]
    exact entries
  rw [Columns.multiply, stored_cols, h.stored_rows pos, if_pos rfl, g.stored_rows posInner, multiply]
  change Mirrors stored (h.columnLists.mapM _ >>= Columns.ofColumns) _
  rw [columnLists_eq_map, List.mapM_map]
  refine (mirrors_ofFnM column).bind fun columns => ?_
  exact ofColumns_of_eq pos rfl

end Grid

namespace ValueMatrix

/-- A grid that is made of columns stores these columns. -/
theorem columnLists_gridOfColumns {rows : Nat} {columns : List (List Value)}
    (h : ∀ column ∈ columns, column.length = rows) :
    (gridOfColumns rows columns h).columnLists = columns := by
  change (columns.attach.map _).map Vector.toList = columns
  rw [List.map_map]
  exact List.attach_map_subtype_val columns

end ValueMatrix

end Reckon
