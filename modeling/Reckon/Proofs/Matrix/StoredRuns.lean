import Reckon.Proofs.Matrix.StoredMatrices

/-!
# Sequences of matrix operations

Matrices are made, changed in place, derived from other ones, joined and asked for entries,
determinants and solutions, in any order and with any arguments. On the stored columns every sequence
has the answers that it has on matrices, so that no access without a check is ever outside, and what is
stored is rectangular after every operation, also after one that failed on the way.
-/

namespace Reckon

/-! ## Operations -/

/-- A matrix made from nothing but its arguments. -/
inductive Making where
  | ofColumns (columns : List (List Value))
  | ofRows (rows : List (List Value))
  | identity (size : Nat)
  | zeros (rows cols : Nat)

/-- A change of a matrix in place. -/
inductive Change where
  | set (row col : Nat) (value : Value)
  | swapRows (a b : Nat)
  | scaleRow (row : Nat) (factor : Value)
  | addScaledRow (target source : Nat) (factor : Value)
  | prettify

/-- A matrix made from another one, which stays as it is. -/
inductive Derivation where
  | columnsFrom (start : Nat)
  | transpose
  | minor (row col : Nat)
  | rowReduce
  | echelonForm
  | makeTriangular
  | invert

/-- A matrix made from two other ones. -/
inductive Joining where
  | augment
  | multiply

/-- Values that are asked of a matrix. -/
inductive Question where
  | get (row col : Nat)
  | row (row : Nat)
  | column (col : Nat)
  | solve (right : List Value)
  | determinant
  | determinantTriangular
  | determinantCofactor
  | characteristicPolynomial (symbol : String)

/-- An operation on the matrices at hand, which are named by their places. -/
inductive MatrixOperation where
  | make (making : Making)
  | change (place : Nat) (change : Change)
  | derive (place : Nat) (derivation : Derivation)
  | join (left right : Nat) (joining : Joining)
  | ask (place : Nat) (question : Question)

/-- The operations on one kind of matrices, which fail in one kind of ways. -/
structure MatrixKit (M E : Type) where
  make : Making → Except E M
  change : Change → M → M × Option E
  derive : Derivation → M → Except E M
  join : Joining → M → M → Except E M
  ask : Question → M → Except E (List Value)

namespace MatrixKit

variable {M E : Type} (kit : MatrixKit M E)

/-- The matrices at hand with one that was made, or as they were if it was not. -/
def keep (ms : List M) (made : Except E M) : Except E (List Value) × List M :=
  match made with
  | .ok m => (.ok [], ms ++ [m])
  | .error mishap => (.error mishap, ms)

/-- The answer to an operation, and the matrices after it. At a place without a matrix nothing is
done. -/
def perform (ms : List M) : MatrixOperation → Except E (List Value) × List M
  | .make making => keep ms (kit.make making)
  | .change place change =>
    match ms[place]? with
    | none => (.ok [], ms)
    | some m =>
      match kit.change change m with
      | (changed, none) => (.ok [], ms.set place changed)
      | (changed, some mishap) => (.error mishap, ms.set place changed)
  | .derive place derivation =>
    match ms[place]? with
    | none => (.ok [], ms)
    | some m => keep ms (kit.derive derivation m)
  | .join left right joining =>
    match ms[left]?, ms[right]? with
    | some m, some other => keep ms (kit.join joining m other)
    | _, _ => (.ok [], ms)
  | .ask place question =>
    match ms[place]? with
    | none => (.ok [], ms)
    | some m => (kit.ask question m, ms)

/-- The answers to operations one after the other, and the matrices after them. -/
def run (ms : List M) : List MatrixOperation → List (Except E (List Value)) × List M
  | [] => ([], ms)
  | op :: ops =>
    let (answer, ms) := kit.perform ms op
    let (answers, ms) := run ms ops
    (answer :: answers, ms)

end MatrixKit

/-- The operations on matrices. -/
def ValueMatrix.kit : MatrixKit ValueMatrix Fault where
  make
    | .ofColumns columns => ofColumns columns
    | .ofRows rows => ofRows rows
    | .identity size => .ok (identity size)
    | .zeros rows cols => .ok (zeros rows cols)
  change
    | .set row col value, m => m.set row col value
    | .swapRows a b, m => m.swapRows a b
    | .scaleRow row factor, m => m.scaleRow row factor
    | .addScaledRow target source factor, m => m.addScaledRow target source factor
    | .prettify, m => (m.prettify, none)
  derive
    | .columnsFrom start, m => m.columnsFrom start
    | .transpose, m => .ok m.transpose
    | .minor row col, m => .ok (m.minor row col)
    | .rowReduce, m => m.rowReduce
    | .echelonForm, m => m.echelonForm
    | .makeTriangular, m => m.makeTriangular
    | .invert, m => m.invert
  join
    | .augment, m, other => m.augment other
    | .multiply, m, other => m.multiply other
  ask
    | .get row col, m => (m.get row col).map ([·])
    | .row row, m => m.row row
    | .column col, m => m.column col
    | .solve right, m => m.solve right
    | .determinant, m => m.determinant.map ([·])
    | .determinantTriangular, m => m.determinantTriangular.map ([·])
    | .determinantCofactor, m => m.determinantCofactor.map ([·])
    | .characteristicPolynomial symbol, m => (m.characteristicPolynomial symbol).map ([·])

/-- The operations on stored columns. -/
def Columns.kit : MatrixKit Columns Mishap where
  make
    | .ofColumns columns => ofColumns columns
    | .ofRows rows => ofRows rows
    | .identity size => identity size
    | .zeros rows cols => .ok (zeros rows cols)
  change
    | .set row col value, m => m.set row col value
    | .swapRows a b, m => m.swapRows a b
    | .scaleRow row factor, m => m.scaleRow row factor
    | .addScaledRow target source factor, m => m.addScaledRow target source factor
    | .prettify, m => (m.prettify, none)
  derive
    | .columnsFrom start, m => m.columnsFrom start
    | .transpose, m => m.transpose
    | .minor row col, m => .ok (m.minor row col)
    | .rowReduce, m => m.rowReduce
    | .echelonForm, m => m.echelonForm
    | .makeTriangular, m => m.makeTriangular
    | .invert, m => m.invert
  join
    | .augment, m, other => m.augment other
    | .multiply, m, other => m.multiply other
  ask
    | .get row col, m => (m.get row col).map ([·])
    | .row row, m => m.row row
    | .column col, m => m.column col
    | .solve right, m => m.solve right
    | .determinant, m => m.determinant.map ([·])
    | .determinantTriangular, m => m.determinantTriangular.map ([·])
    | .determinantCofactor, m => m.determinantCofactor.map ([·])
    | .characteristicPolynomial symbol, m => (m.characteristicPolynomial symbol).map ([·])

/-! ## One operation -/

namespace ValueMatrix

/-- Stored columns are made like matrices. -/
theorem mirrors_make (making : Making) :
    Mirrors stored (Columns.kit.make making) (kit.make making) := by
  cases making with
  | ofColumns columns => exact mirrors_ofColumns columns
  | ofRows rows => exact mirrors_ofRows rows
  | identity size => exact stored_identity size
  | zeros rows cols => exact congrArg Except.ok (stored_zeros rows cols)

/-- Stored columns are changed like matrices. -/
theorem stored_change (change : Change) (m : ValueMatrix) :
    Columns.kit.change change m.stored = storedChange (kit.change change m) := by
  cases change with
  | set row col value => exact m.stored_set row col value
  | swapRows a b => exact m.stored_swapRows a b
  | scaleRow row factor => exact m.stored_scaleRow row factor
  | addScaledRow target source factor => exact m.stored_addScaledRow target source factor
  | prettify => exact congrArg (·, none) m.stored_prettify

/-- Stored columns are made from others like matrices. -/
theorem mirrors_derive (derivation : Derivation) (m : ValueMatrix) :
    Mirrors stored (Columns.kit.derive derivation m.stored) (kit.derive derivation m) := by
  cases derivation with
  | columnsFrom start => exact m.mirrors_columnsFrom start
  | transpose => exact m.stored_transpose
  | minor row col => exact congrArg Except.ok (m.stored_minor row col)
  | rowReduce => exact m.mirrors_rowReduce
  | echelonForm => exact m.mirrors_echelonForm
  | makeTriangular => exact m.mirrors_makeTriangular
  | invert => exact m.mirrors_invert

/-- Stored columns are joined like matrices. -/
theorem mirrors_join (joining : Joining) (m other : ValueMatrix) :
    Mirrors stored (Columns.kit.join joining m.stored other.stored) (kit.join joining m other) := by
  cases joining with
  | augment => exact m.mirrors_augment other
  | multiply => exact m.mirrors_multiply other

/-- Stored columns answer questions like matrices. -/
theorem mirrors_ask (question : Question) (m : ValueMatrix) :
    Mirrors id (Columns.kit.ask question m.stored) (kit.ask question m) := by
  cases question with
  | get row col => exact (m.mirrors_get row col).map fun _ => rfl
  | row row => exact m.mirrors_row row
  | column col => exact m.mirrors_column col
  | solve right => exact m.mirrors_solve right
  | determinant => exact m.mirrors_determinant.map fun _ => rfl
  | determinantTriangular => exact m.mirrors_determinantTriangular.map fun _ => rfl
  | determinantCofactor => exact m.mirrors_determinantCofactor.map fun _ => rfl
  | characteristicPolynomial symbol =>
    exact (m.mirrors_characteristicPolynomial symbol).map fun _ => rfl

/-- What matrices answer and leave behind, as it is stored. -/
def storedOutcome (outcome : Except Fault (List Value) × List ValueMatrix) :
    Checked (List Value) × List Columns :=
  (reported outcome.1, outcome.2.map stored)

/-- What was made is stored behind what is at hand, or nothing is. -/
theorem stored_keep (ms : List ValueMatrix) {made : Except Fault ValueMatrix}
    {made' : Checked Columns} (h : Mirrors stored made' made) :
    MatrixKit.keep (ms.map stored) made' = storedOutcome (MatrixKit.keep ms made) := by
  rw [h]
  cases made with
  | error fault => rfl
  | ok m =>
    simp only [MatrixKit.keep, storedOutcome, List.map_append]
    rfl

/-- One operation on stored columns has the answer of the matrices and leaves their columns behind.
-/
theorem stored_perform (ms : List ValueMatrix) (op : MatrixOperation) :
    Columns.kit.perform (ms.map stored) op = storedOutcome (kit.perform ms op) := by
  cases op with
  | make making => exact stored_keep ms (mirrors_make making)
  | change place change =>
    simp only [MatrixKit.perform, List.getElem?_map]
    cases ms[place]? with
    | none => rfl
    | some m =>
      simp only [Option.map_some, stored_change, storedChange]
      rcases kit.change change m with ⟨changed, _ | fault⟩ <;>
        exact congrArg (Prod.mk _) List.map_set.symm
  | derive place derivation =>
    simp only [MatrixKit.perform, List.getElem?_map]
    cases ms[place]? with
    | none => rfl
    | some m => exact stored_keep ms (mirrors_derive derivation m)
  | join left right joining =>
    simp only [MatrixKit.perform, List.getElem?_map]
    cases ms[left]? with
    | none => rfl
    | some m =>
      cases ms[right]? with
      | none => rfl
      | some other => exact stored_keep ms (mirrors_join joining m other)
  | ask place question =>
    simp only [MatrixKit.perform, List.getElem?_map]
    cases ms[place]? with
    | none => rfl
    | some m => exact congrArg (·, ms.map stored) (mirrors_ask question m).eq_reported

/-! ## Runs -/

/-- A run of operations on stored columns has the answers of the matrices and leaves their columns
behind. -/
theorem stored_run (ms : List ValueMatrix) (ops : List MatrixOperation) :
    Columns.kit.run (ms.map stored) ops =
      ((kit.run ms ops).1.map reported, (kit.run ms ops).2.map stored) := by
  induction ops generalizing ms with
  | nil => rfl
  | cons op ops ih =>
    simp only [MatrixKit.run, stored_perform, storedOutcome, ih, List.map_cons]

end ValueMatrix

/-- At least one column, all columns of one length, and a row at least if there are as many rows as
columns. -/
structure Columns.IsRectangular (m : Columns) : Prop where
  cols_pos : 0 < m.cols
  length_eq : ∀ column ∈ m.lists, column.length = m.rows
  rows_pos : m.rows = m.cols → 0 < m.rows

/-- The stored columns of a matrix are rectangular. -/
theorem ValueMatrix.isRectangular_stored (m : ValueMatrix) : m.stored.IsRectangular where
  cols_pos := m.stored_cols ▸ m.cols_pos
  length_eq _ mem := m.stored_rows ▸ Grid.length_of_mem_columnLists mem
  rows_pos square := by
    rw [square, m.stored_cols]
    exact m.cols_pos

/-- Whatever sequence of operations there was: on the stored columns it has the answers that it has on
matrices, no access was outside, and all columns that are stored are rectangular. -/
theorem accesses_stay_inside (ops : List MatrixOperation) :
    Columns.kit.run [] ops = ((ValueMatrix.kit.run [] ops).1.map reported,
      (ValueMatrix.kit.run [] ops).2.map ValueMatrix.stored) ∧
    (∀ answer ∈ (Columns.kit.run [] ops).1, answer ≠ .error .outside) ∧
    ∀ m ∈ (Columns.kit.run [] ops).2, m.IsRectangular := by
  have mirrored := ValueMatrix.stored_run [] ops
  rw [List.map_nil] at mirrored
  refine ⟨mirrored, fun answer mem => ?_, fun m mem => ?_⟩
  · rw [mirrored] at mem
    obtain ⟨typed, -, rfl⟩ := List.mem_map.1 mem
    exact (mirrors_reported typed).ne_outside
  · rw [mirrored] at mem
    obtain ⟨m, -, rfl⟩ := List.mem_map.1 mem
    exact m.isRectangular_stored

/-- The checks go by the first column, so that an access to columns of other lengths could get out. -/
example : (Columns.mk [[.one], []]).get 0 1 = .error .outside :=
  rfl

end Reckon
