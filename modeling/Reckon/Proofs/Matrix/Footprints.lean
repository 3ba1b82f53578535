import Mathlib.Data.Fin.VecNotation
import Reckon.Matrix.Basic

/-!
# Footprints of row operations

A row operation computes the new entries of one row from the left. If all of them can be computed, all
are written. Otherwise the operation ends at the first column that has no room for its entry: the
entries before it are written, that entry and those behind it are as they were. The other rows stay as
they are in either case. Every entry is computed from the matrix as it was before the operation, also
where a row is added to itself.
-/

namespace Reckon

/-- Items that are replaced from the left by updated ones: all of them, or those in front of the first
one without an update, whose fault is met. -/
def UpdatedInTurn {n : Nat} {α ε : Type} (update : Fin n → Except ε α) (before after : Fin n → α)
    (fault? : Option ε) : Prop :=
  match fault? with
  | none => ∀ j, update j = .ok (after j)
  | some fault => ∃ j, update j = .error fault ∧ (∀ b < j, update b = .ok (after b)) ∧
      ∀ b, j ≤ b → after b = before b

section

variable {α ε : Type} {f : α → Except ε α} {xs : List α}

/-- Where no fault is met, every item is changed. -/
theorem getElem?_changeInTurn_of_eq_none (through : (changeInTurn f xs).2 = none) {i : Nat} {x : α}
    (item : xs[i]? = some x) : ∃ y, (changeInTurn f xs).1[i]? = some y ∧ f x = .ok y := by
  induction xs generalizing i with
  | nil => cases item
  | cons first xs ih =>
    rw [changeInTurn] at through ⊢
    cases changed : f first with
    | error fault =>
      rw [changed] at through
      cases through
    | ok y =>
      rw [changed] at through
      cases i with
      | zero =>
        obtain rfl : first = x := Option.some.inj item
        exact ⟨y, rfl, changed⟩
      | succ i => exact ih through item

/-- Where a fault is met, the items in front of that place are changed, and those from there on are
not. -/
theorem exists_of_changeInTurn_eq_some {fault : ε} (met : (changeInTurn f xs).2 = some fault) :
    ∃ (k : Nat) (x : α), xs[k]? = some x ∧ f x = .error fault ∧
      (∀ i < k, ∀ z, xs[i]? = some z → ∃ y, (changeInTurn f xs).1[i]? = some y ∧ f z = .ok y) ∧
      ∀ i, k ≤ i → (changeInTurn f xs).1[i]? = xs[i]? := by
  induction xs with
  | nil => cases met
  | cons first xs ih =>
    rw [changeInTurn] at met ⊢
    cases changed : f first with
    | error found =>
      rw [changed] at met
      obtain rfl : found = fault := Option.some.inj met
      exact ⟨0, first, rfl, changed, fun i before => absurd before (Nat.not_lt_zero i),
        fun i _ => rfl⟩
    | ok y =>
      rw [changed] at met
      obtain ⟨k, x, item, failed, before, behind⟩ := ih met
      refine ⟨k + 1, x, item, failed, fun i inFront z earlier => ?_, fun i notInFront => ?_⟩
      · cases i with
        | zero =>
          obtain rfl : first = z := Option.some.inj earlier
          exact ⟨y, rfl, changed⟩
        | succ i => exact before i (Nat.lt_of_succ_lt_succ inFront) z earlier
      · cases i with
        | zero => cases notInFront
        | succ i => exact behind i (Nat.le_of_succ_le_succ notInFront)

end

/-- What is made of a result has its fault. -/
theorem eq_error_of_map {α β ε : Type} {x : Except ε α} {f : α → β} {fault : ε}
    (failed : x.map f = .error fault) : x = .error fault := by
  cases x with
  | error found =>
    cases failed
    rfl
  | ok a => cases failed

namespace Grid

variable {rows cols : Nat} {g : Grid rows cols}

/-- What an operation on one row leaves: the entries of that row updated from the left, all other ones
as they were. -/
structure Footprint (g : Grid rows cols) (target : Fin rows) (update : Fin cols → Except Fault Value)
    (changed : Grid rows cols × Option Fault) : Prop where
  inside : UpdatedInTurn update (g.entry target) (changed.1.entry target) changed.2
  outside : ∀ i ≠ target, ∀ j, changed.1.entry i j = g.entry i j

/-- The columns of a grid as a list hold each column in its place. -/
theorem getElem?_columns (g : Grid rows cols) (j : Fin cols) :
    g.columns.toList[j.val]? = some (g.columns.get j) := by
  rw [Vector.getElem?_toList, Vector.getElem?_eq_getElem j.isLt]
  rfl

/-- A change of columns in turn leaves each column in its place. -/
theorem getElem?_changeColumns (f : Vector Value rows → Except Fault (Vector Value rows))
    (g : Grid rows cols) (j : Fin cols) :
    (changeInTurn f g.columns.toList).1[j.val]? = some ((g.changeColumns f).1.columns.get j) := by
  rw [← getElem?_columns]
  rfl

/-- Going through the columns in turn replaces them from the left. -/
theorem updatedInTurn_changeColumns (f : Vector Value rows → Except Fault (Vector Value rows))
    (g : Grid rows cols) :
    UpdatedInTurn (fun j => f (g.columns.get j)) g.columns.get (g.changeColumns f).1.columns.get
      (g.changeColumns f).2 := by
  have replaced {j : Fin cols} (changed : ∃ y, (changeInTurn f g.columns.toList).1[j.val]? = some y ∧
      f (g.columns.get j) = .ok y) :
      f (g.columns.get j) = .ok ((g.changeColumns f).1.columns.get j) := by
    obtain ⟨y, item, result⟩ := changed
    rw [getElem?_changeColumns] at item
    rw [result, Option.some.inj item]
  cases outcome : (g.changeColumns f).2 with
  | none =>
    intro j
    exact replaced (getElem?_changeInTurn_of_eq_none outcome (g.getElem?_columns j))
  | some fault =>
    obtain ⟨k, column, item, failed, before, behind⟩ := exists_of_changeInTurn_eq_some outcome
    have inside : k < cols := by
      have := (List.getElem?_eq_some_iff.1 item).1
      rwa [Vector.length_toList] at this
    have first : column = g.columns.get ⟨k, inside⟩ :=
      Option.some.inj (item.symm.trans (g.getElem?_columns ⟨k, inside⟩))
    subst first
    refine ⟨⟨k, inside⟩, failed, fun b inFront => ?_, fun b notInFront => ?_⟩
    · exact replaced (before b inFront _ (g.getElem?_columns b))
    · have same := behind b notInFront
      rw [getElem?_changeColumns, getElem?_columns] at same
      exact Option.some.inj same

/-- A column in which one entry is written, if there is one to write. -/
theorem eq_ok_of_written {column after : Vector Value rows} {target : Fin rows}
    {entry : Except Fault Value}
    (written : (entry.map fun value => column.set target value target.isLt) = .ok after) :
    entry = .ok (after.get target) ∧ ∀ i ≠ target, after.get i = column.get i := by
  cases entry with
  | error fault => cases written
  | ok value =>
    obtain rfl : column.set target value target.isLt = after := Except.ok.inj written
    refine ⟨congrArg Except.ok (Vector.getElem_set_self target.isLt).symm, fun i other => ?_⟩
    exact Vector.getElem_set_ne target.isLt i.isLt fun same => other (Fin.ext same.symm)

/-- An operation that writes one entry of every column has the footprint of that row. -/
theorem footprint_changeColumns {f : Vector Value rows → Except Fault (Vector Value rows)}
    {target : Fin rows} {update : Fin cols → Except Fault Value}
    (writes : ∀ j, f (g.columns.get j) =
      (update j).map fun value => (g.columns.get j).set target value target.isLt) :
    g.Footprint target update (g.changeColumns f) := by
  have turns := updatedInTurn_changeColumns f g
  simp only [writes] at turns
  generalize g.changeColumns f = changed at turns
  obtain ⟨after, fault?⟩ := changed
  cases fault? with
  | none =>
    exact ⟨fun j => (eq_ok_of_written (turns j)).1,
      fun i other j => (eq_ok_of_written (turns j)).2 i other⟩
  | some fault =>
    obtain ⟨k, failed, before, behind⟩ := turns
    refine ⟨⟨k, eq_error_of_map failed, fun b inFront => (eq_ok_of_written (before b inFront)).1,
      fun b notInFront => congrArg (·.get target) (behind b notInFront)⟩, fun i other j => ?_⟩
    rcases Nat.lt_or_ge j k with inFront | notInFront
    · exact (eq_ok_of_written (before j inFront)).2 i other
    · exact congrArg (·.get i) (behind j notInFront)

/-- An entry of a column is the entry of the grid. -/
theorem get_columns_get (g : Grid rows cols) (i : Fin rows) (j : Fin cols) :
    (g.columns.get j).get i = g.entry i j :=
  rfl

/-- Scaling a row touches that row alone, from the left. -/
theorem footprint_scaleRow (g : Grid rows cols) (i : Fin rows) (factor : Value) :
    g.Footprint i (fun j => (g.entry i j).mul factor) (g.scaleRow i factor) := by
  refine footprint_changeColumns fun j => ?_
  rw [get_columns_get]
  cases (g.entry i j).mul factor <;> rfl

/-- The source row is read before the target row is written, so that both may be the same one. -/
theorem footprint_addScaledRow (g : Grid rows cols) (target source : Fin rows) (factor : Value) :
    g.Footprint target
      (fun j => do
        let scaled ← (g.entry source j).mul factor
        (g.entry target j).add scaled)
      (g.addScaledRow target source factor) := by
  refine footprint_changeColumns fun j => ?_
  rw [get_columns_get, get_columns_get]
  cases (g.entry source j).mul factor with
  | error fault => rfl
  | ok scaled =>
    dsimp only [bind, Except.bind]
    cases (g.entry target j).add scaled <;> rfl

/-- A row that is added to itself is doubled up to the first entry without room. -/
example :
    let greatest : Value := .number ⟨false, 2 ^ 96 - 1, 0, by decide, by decide⟩
    let g : Grid 1 3 := ofFn fun _ => ![.one, greatest, .one]
    g.addScaledRow 0 0 .one = (ofFn fun _ => ![.number .two, greatest, .one],
      some (.arithmetic .additionOverflow)) := by
  decide +kernel

end Grid

namespace ValueMatrix

/-- Scaling a row of a matrix scales it in its grid. -/
theorem scaleRow_eq (m : ValueMatrix) (i : Fin m.rows) (factor : Value) :
    m.scaleRow i factor =
      (m.withGrid (m.grid.scaleRow i factor).1, (m.grid.scaleRow i factor).2) :=
  dif_pos ⟨i.isLt, i.isLt⟩

/-- Adding a multiple of a row of a matrix adds it in its grid. -/
theorem addScaledRow_eq (m : ValueMatrix) (target source : Fin m.rows) (factor : Value) :
    m.addScaledRow target source factor =
      (m.withGrid (m.grid.addScaledRow target source factor).1,
        (m.grid.addScaledRow target source factor).2) :=
  dif_pos ⟨target.isLt, source.isLt⟩

end ValueMatrix

end Reckon
