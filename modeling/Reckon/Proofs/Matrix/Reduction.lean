import Mathlib.LinearAlgebra.Matrix.Swap
import Reckon.Proofs.Matrix.Echelon

/-!
# Elimination over the rationals

The same elimination with exact numbers: a pivot is brought up, its row divided by it and taken from
the other rows. The invariant looks at the columns that were gone through. They are in echelon form
with pivots one, the rows above the lead have entries in them and the rows from the lead on have
none.
-/

namespace Reckon.Echelon

open Matrix

variable {rows cols : Nat} {A B : Matrix (Fin rows) (Fin cols) ℚ}

/-! ## One pivot -/

/-- The first row from `start` on with an entry in the column. -/
def pivotRow? (A : Matrix (Fin rows) (Fin cols) ℚ) (j : Fin cols) (start : Nat) :
    Option (Fin rows) :=
  (List.finRange rows).find? fun i => decide (start ≤ i.val) && decide (A i j ≠ 0)

/-- The matrix with two rows exchanged. -/
def exchanged (A : Matrix (Fin rows) (Fin cols) ℚ) (a b : Fin rows) :
    Matrix (Fin rows) (Fin cols) ℚ :=
  fun i => A (Equiv.swap a b i)

/-- The matrix with a row divided by one of its entries. -/
def normalized (A : Matrix (Fin rows) (Fin cols) ℚ) (i : Fin rows) (j : Fin cols) :
    Matrix (Fin rows) (Fin cols) ℚ :=
  fun a => if a = i then (A i j)⁻¹ • A i else A a

/-- The factors with which the row of a pivot is taken from the rows: from all others, or from
those below it. -/
def factors (below : Bool) (A : Matrix (Fin rows) (Fin cols) ℚ) (i : Fin rows) (j : Fin cols) :
    Fin rows → ℚ :=
  fun a => if a ≠ i ∧ (below = true → i < a) then A a j else 0

/-- The matrix with multiples of the row of a pivot taken from the rows. -/
def cleared (below : Bool) (A : Matrix (Fin rows) (Fin cols) ℚ) (i : Fin rows) (j : Fin cols) :
    Matrix (Fin rows) (Fin cols) ℚ :=
  fun a => A a - factors below A i j a • A i

/-- The matrix after a pivot was brought up, made one and used. -/
def pivoted (below : Bool) (A : Matrix (Fin rows) (Fin cols) ℚ) (i pivot : Fin rows)
    (j : Fin cols) : Matrix (Fin rows) (Fin cols) ℚ :=
  cleared below (normalized (exchanged A i pivot) i j) i j

/-- Goes through columns with a lead row. -/
def reduced (below : Bool) :
    List (Fin cols) → (lead : Nat) → Matrix (Fin rows) (Fin cols) ℚ → Matrix (Fin rows) (Fin cols) ℚ
  | [], _, A => A
  | j :: columns, lead, A =>
    if h : lead < rows then
      match pivotRow? A j lead with
      | none => reduced below columns lead A
      | some pivot => reduced below columns (lead + 1) (pivoted below A ⟨lead, h⟩ pivot j)
    else A

/-- A column without a pivot is zero from the start on. -/
theorem eq_zero_of_pivotRow?_eq_none {j : Fin cols} {start : Nat} (h : pivotRow? A j start = none)
    {i : Fin rows} (le : start ≤ i.val) : A i j = 0 := by
  have none := List.find?_eq_none.1 h i (List.mem_finRange i)
  simpa [le] using none

/-- A pivot that is found is not above the start and is not zero. -/
theorem of_pivotRow?_eq_some {j : Fin cols} {start : Nat} {pivot : Fin rows}
    (h : pivotRow? A j start = some pivot) : start ≤ pivot.val ∧ A pivot j ≠ 0 := by
  have found := List.find?_some h
  simpa using found

/-! ## Row equivalence -/

/-- Exchanging two rows is a row operation. -/
theorem rowEquivalent_exchanged (A : Matrix (Fin rows) (Fin cols) ℚ) (a b : Fin rows) :
    RowEquivalent A (exchanged A a b) := by
  refine ⟨GeneralLinearGroup.swap ℚ a b, ?_⟩
  exact PEquiv.toMatrix_toPEquiv_mul (Equiv.swap a b) A

/-- Dividing a row by an entry other than zero is a row operation. -/
theorem rowEquivalent_normalized {i : Fin rows} {j : Fin cols} (entry : A i j ≠ 0) :
    RowEquivalent A (normalized A i j) := by
  have left : diagonal (Function.update 1 i (A i j)⁻¹) * diagonal (Function.update 1 i (A i j)) =
      (1 : Matrix (Fin rows) (Fin rows) ℚ) := by
    rw [diagonal_mul_diagonal, ← diagonal_one]
    congr 1
    funext a
    by_cases same : a = i
    · subst same
      simp [entry]
    · simp [same]
  have right := mul_eq_one_comm.1 left
  refine ⟨⟨_, _, left, right⟩, ?_⟩
  funext a b
  rw [diagonal_mul, normalized]
  by_cases same : a = i
  · subst same
    simp
  · simp [same]

/-- Clearing a column is a row operation. -/
theorem rowEquivalent_cleared (below : Bool) (A : Matrix (Fin rows) (Fin cols) ℚ) (i : Fin rows)
    (j : Fin cols) : RowEquivalent A (cleared below A i j) := by
  have own : factors below A i j i = 0 := by simp [factors]
  have square : vecMulVec (factors below A i j) (Pi.single i 1) *
      vecMulVec (factors below A i j) (Pi.single i 1) =
        (0 : Matrix (Fin rows) (Fin rows) ℚ) := by
    rw [vecMulVec_mul, vecMul_vecMulVec, single_one_dotProduct, own, zero_smul, vecMulVec_zero]
  have left : (1 - vecMulVec (factors below A i j) (Pi.single i 1)) *
      (1 + vecMulVec (factors below A i j) (Pi.single i 1)) =
        (1 : Matrix (Fin rows) (Fin rows) ℚ) := by
    rw [Matrix.sub_mul, Matrix.mul_add, Matrix.mul_add, square]
    simp
  have right := mul_eq_one_comm.1 left
  refine ⟨⟨_, _, left, right⟩, ?_⟩
  funext a
  rw [Matrix.sub_mul, Matrix.one_mul, vecMulVec_mul, single_one_vecMul]
  rfl

/-- Bringing up a pivot and using it are row operations. -/
theorem rowEquivalent_pivoted (below : Bool) (i pivot : Fin rows) {j : Fin cols}
    (entry : A pivot j ≠ 0) : RowEquivalent A (pivoted below A i pivot j) := by
  have moved : exchanged A i pivot i j ≠ 0 := by
    rw [exchanged, Equiv.swap_apply_left]
    exact entry
  have first := rowEquivalent_exchanged A i pivot
  have second := rowEquivalent_normalized moved
  exact (first.trans second).trans (rowEquivalent_cleared below _ i j)

/-- Elimination takes row operations only. -/
theorem rowEquivalent_reduced (below : Bool) (columns : List (Fin cols)) (lead : Nat)
    (A : Matrix (Fin rows) (Fin cols) ℚ) : RowEquivalent A (reduced below columns lead A) := by
  induction columns generalizing lead A with
  | nil => exact .refl A
  | cons j columns ih =>
    rw [reduced]
    split
    · cases found : pivotRow? A j lead with
      | none => exact ih lead A
      | some pivot =>
        have entry := (of_pivotRow?_eq_some found).2
        exact (rowEquivalent_pivoted below _ pivot entry).trans (ih (lead + 1) _)
    · exact .refl A

/-! ## Entries after a pivot -/

section Entries

variable {below : Bool} {i pivot : Fin rows} {j : Fin cols}

/-- Columns in which neither row has an entry stay as they are. -/
theorem pivoted_of_eq_zero {b : Fin cols} (own : A i b = 0) (brought : A pivot b = 0)
    (a : Fin rows) : pivoted below A i pivot j a b = A a b := by
  have moved : ∀ a, exchanged A i pivot a b = A a b := by
    intro a
    rw [exchanged, Equiv.swap_apply_def]
    split
    · next same => rw [same, own, brought]
    · split
      · next same => rw [same, own, brought]
      · rfl
  have divided : ∀ a, normalized (exchanged A i pivot) i j a b = A a b := by
    intro a
    rw [normalized]
    split
    · next same => rw [Pi.smul_apply, moved, own, smul_zero, same, own]
    · exact moved a
  rw [pivoted, cleared, Pi.sub_apply, Pi.smul_apply, divided, divided, own, smul_zero, sub_zero]

/-- The pivot is brought up. -/
theorem exchanged_self : exchanged A i pivot i j = A pivot j := by
  rw [exchanged, Equiv.swap_apply_left]

/-- The pivot becomes one. -/
theorem normalized_self (entry : A pivot j ≠ 0) :
    normalized (exchanged A i pivot) i j i j = 1 := by
  rw [normalized, if_pos rfl, Pi.smul_apply, exchanged_self, smul_eq_mul, inv_mul_cancel₀ entry]

/-- The pivot stays one when the other rows are cleared. -/
theorem pivoted_self (entry : A pivot j ≠ 0) : pivoted below A i pivot j i j = 1 := by
  have own : ∀ B : Matrix (Fin rows) (Fin cols) ℚ, factors below B i j i = 0 := by
    intro B
    rw [factors, if_neg (fun h => h.1 rfl)]
  rw [pivoted, cleared, Pi.sub_apply, Pi.smul_apply, own, zero_smul, sub_zero,
    normalized_self entry]

/-- The column of the pivot becomes zero in the rows that are cleared. -/
theorem pivoted_other (entry : A pivot j ≠ 0) {a : Fin rows} (other : a ≠ i)
    (target : below = true → i < a) : pivoted below A i pivot j a j = 0 := by
  rw [pivoted, cleared, Pi.sub_apply, Pi.smul_apply, factors, if_pos ⟨other, target⟩,
    normalized_self entry, smul_eq_mul, mul_one, sub_self]

end Entries

/-! ## The invariant -/

/-- In the first columns the matrix is in echelon form with pivots one, and alone in their columns
unless only the rows below pivots are cleared. The rows above the lead have entries there, and the
others have none. -/
structure Visited (below : Bool) (width lead : Nat) (A : Matrix (Fin rows) (Fin cols) ℚ) :
    Prop where
  echelon : ∀ i k, i < k → ∀ j : Fin cols, j.val < width → (∀ b < j, A i b = 0) → A k j = 0
  one : ∀ i (j : Fin cols), j.val < width → A.IsLeadingEntry i j → A i j = 1
  alone : below = false →
    ∀ i (j : Fin cols), j.val < width → A.IsLeadingEntry i j → ∀ k < i, A k j = 0
  used : ∀ i : Fin rows, i.val < lead → ∃ j : Fin cols, j.val < width ∧ A i j ≠ 0
  rest : ∀ i : Fin rows, lead ≤ i.val → ∀ j : Fin cols, j.val < width → A i j = 0

/-- Before any column is visited, nothing is asked of the matrix. -/
theorem visited_zero (below : Bool) (A : Matrix (Fin rows) (Fin cols) ℚ) : Visited below 0 0 A where
  echelon _ _ _ _ visited := absurd visited (Nat.not_lt_zero _)
  one _ _ visited := absurd visited (Nat.not_lt_zero _)
  alone _ _ _ visited := absurd visited (Nat.not_lt_zero _)
  used _ above := absurd above (Nat.not_lt_zero _)
  rest _ _ _ visited := absurd visited (Nat.not_lt_zero _)

namespace Visited

variable {below : Bool} {width lead : Nat}

/-- A row without entries in the columns that were gone through is not above the lead. -/
theorem le_of_forall_eq_zero (h : Visited below width lead A) {i : Fin rows} {c : Fin cols}
    (last : c.val = width) (zero : ∀ b < c, A i b = 0) : lead ≤ i.val := by
  refine Nat.le_of_not_lt fun above => ?_
  obtain ⟨j, visited, entry⟩ := h.used i above
  exact entry (zero j (Fin.lt_def.2 (by omega)))

/-- One more column is gone through. The visited columns stay as they are, and in the new one the
rows that are not used yet have no entry but for the pivot, if there is one. -/
theorem extend (h : Visited below width lead A) {c : Fin cols} (last : c.val = width)
    {lead' : Nat} (le : lead ≤ lead')
    (kept : ∀ a (b : Fin cols), b.val < width → B a b = A a b)
    (free : ∀ a : Fin rows, lead' ≤ a.val → B a c = 0)
    (pivot : ∀ i : Fin rows, lead ≤ i.val → i.val < lead' →
      B i c = 1 ∧ (∀ k, i < k → B k c = 0) ∧ (below = false → ∀ k < i, B k c = 0)) :
    Visited below (width + 1) lead' B := by
  have split : ∀ b : Fin cols, b.val < width + 1 → b.val < width ∨ b = c := by
    intro b visited
    rcases Nat.lt_succ_iff_lt_or_eq.1 visited with visited | same
    · exact .inl visited
    · exact .inr (Fin.ext (same.trans last.symm))
  have keptLeft : ∀ (a : Fin rows) (b : Fin cols), b.val ≤ width →
      (∀ d < b, B a d = 0) → ∀ d < b, A a d = 0 := by
    intro a b le zero d left
    have visited : d.val < width := Nat.lt_of_lt_of_le (Fin.lt_def.1 left) le
    rw [← kept a d visited]
    exact zero d left
  have keptLead : ∀ (a : Fin rows) (b : Fin cols), b.val < width → B.IsLeadingEntry a b →
      A.IsLeadingEntry a b := by
    intro a b visited first
    refine ⟨keptLeft a b (Nat.le_of_lt visited) first.1, ?_⟩
    rw [← kept a b visited]
    exact first.2
  have unused : ∀ (i : Fin rows), (∀ b < c, B i b = 0) → lead ≤ i.val := fun i zero =>
    h.le_of_forall_eq_zero last (keptLeft i c (Nat.le_of_eq last) zero)
  -- A row that begins in the new column is the row of a pivot.
  have isPivot : ∀ i, B.IsLeadingEntry i c → lead ≤ i.val ∧ i.val < lead' := by
    intro i first
    exact ⟨unused i first.1, Nat.lt_of_not_le fun after => first.2 (free i after)⟩
  refine ⟨?_, ?_, ?_, ?_, ?_⟩
  · intro i k less j visited zero
    rcases split j visited with visited | rfl
    · rw [kept k j visited]
      exact h.echelon i k less j visited (keptLeft i j (Nat.le_of_lt visited) zero)
    · have above := unused i zero
      by_cases used : i.val < lead'
      · exact (pivot i above used).2.1 k less
      · exact free k (by have := Fin.lt_def.1 less; omega)
  · intro i j visited first
    rcases split j visited with visited | rfl
    · rw [kept i j visited]
      exact h.one i j visited (keptLead i j visited first)
    · have used := isPivot i first
      exact (pivot i used.1 used.2).1
  · intro all i j visited first k less
    rcases split j visited with visited | rfl
    · rw [kept k j visited]
      exact h.alone all i j visited (keptLead i j visited first) k less
    · have used := isPivot i first
      exact (pivot i used.1 used.2).2.2 all k less
  · intro i above
    by_cases before : i.val < lead
    · obtain ⟨j, visited, entry⟩ := h.used i before
      exact ⟨j, by omega, by rw [kept i j visited]; exact entry⟩
    · refine ⟨c, by omega, ?_⟩
      rw [(pivot i (Nat.le_of_not_lt before) above).1]
      exact one_ne_zero
  · intro i after j visited
    rcases split j visited with visited | rfl
    · rw [kept i j visited]
      exact h.rest i (Nat.le_trans le after) j visited
    · exact free i after

/-- A column without a pivot is passed over. -/
theorem skip (h : Visited below width lead A) {c : Fin cols} (last : c.val = width)
    (none : pivotRow? A c lead = none) : Visited below (width + 1) lead A := by
  refine h.extend last (Nat.le_refl lead) (fun _ _ _ => rfl) (fun a after => ?_) fun i ge lt => ?_
  · exact eq_zero_of_pivotRow?_eq_none none after
  · exact absurd lt (Nat.not_lt.2 ge)

/-- A column with a pivot adds a row. -/
theorem step (h : Visited below width lead A) {c : Fin cols} (last : c.val = width)
    (room : lead < rows) {p : Fin rows} (found : pivotRow? A c lead = some p) :
    Visited below (width + 1) (lead + 1) (pivoted below A ⟨lead, room⟩ p c) := by
  obtain ⟨after, entry⟩ := of_pivotRow?_eq_some found
  have kept : ∀ a (b : Fin cols), b.val < width → pivoted below A ⟨lead, room⟩ p c a b = A a b := by
    intro a b visited
    have own := h.rest ⟨lead, room⟩ (Nat.le_refl lead) b visited
    exact pivoted_of_eq_zero own (h.rest p after b visited) a
  have clear : ∀ k : Fin rows, lead < k.val → pivoted below A ⟨lead, room⟩ p c k c = 0 := by
    intro k more
    have other : k ≠ ⟨lead, room⟩ := fun same => by
      rw [same] at more
      exact Nat.lt_irrefl _ more
    exact pivoted_other entry other fun _ => Fin.lt_def.2 more
  refine h.extend last (Nat.le_succ lead) kept (fun a after => clear a after) fun i ge lt => ?_
  obtain rfl : i = ⟨lead, room⟩ := Fin.ext (by simp only; omega)
  refine ⟨pivoted_self entry, fun k more => clear k (Fin.lt_def.1 more), fun all k less => ?_⟩
  refine pivoted_other entry (ne_of_lt less) fun onlyBelow => ?_
  rw [all] at onlyBelow
  cases onlyBelow

/-- When all columns were gone through or all rows are used, the matrix is in echelon form. -/
theorem finish (h : Visited below width lead A) (done : width = cols ∨ rows ≤ lead) :
    A.IsRowEchelon ∧ (∀ i j, A.IsLeadingEntry i j → A i j = 1) ∧
      (below = false → A.IsReducedRowEchelon) := by
  have visited : ∀ (i : Fin rows) (j : Fin cols), (∀ b < j, A i b = 0) → j.val < width := by
    intro i j zero
    rcases done with all | used
    · rw [all]
      exact j.isLt
    · obtain ⟨b, inside, entry⟩ := h.used i (Nat.lt_of_lt_of_le i.isLt used)
      have le : j ≤ b := not_lt.1 fun left => entry (zero b left)
      exact Nat.lt_of_le_of_lt (Fin.le_def.1 le) inside
  have echelon : A.IsRowEchelon :=
    fun i k less j zero => h.echelon i k less j (visited i j zero) zero
  have one : ∀ i j, A.IsLeadingEntry i j → A i j = 1 :=
    fun i j first => h.one i j (visited i j first.1) first
  refine ⟨echelon, one, fun all => ⟨echelon, fun i j first => one i j first, ?_⟩⟩
  intro k i j less first
  exact h.alone all i j (visited i j first.1) first k less

end Visited

/-- The columns of a list follow the first ones, up to the last. -/
def Follows (width : Nat) (columns : List (Fin cols)) : Prop :=
  columns.map Fin.val = List.range' width columns.length ∧ width + columns.length = cols

/-- All columns follow each other from the first one on. -/
theorem follows_finRange : Follows 0 (List.finRange cols) := by
  refine ⟨?_, by simp⟩
  rw [List.map_coe_finRange_eq_range, List.length_finRange, List.range_eq_range']

/-- The first of some columns is the next one, and the others follow it. -/
theorem Follows.head {width : Nat} {j : Fin cols} {columns : List (Fin cols)}
    (h : Follows width (j :: columns)) : j.val = width ∧ Follows (width + 1) columns := by
  obtain ⟨ordered, full⟩ := h
  rw [List.map_cons, List.length_cons, List.range'_succ, List.cons.injEq] at ordered
  rw [List.length_cons] at full
  exact ⟨ordered.1, ordered.2, by omega⟩

/-- Going through all columns that are left ends in echelon form. -/
theorem finish_reduced {below : Bool} {width lead : Nat} {columns : List (Fin cols)}
    (follows : Follows width columns) (h : Visited below width lead A) :
    ∃ width' lead', Visited below width' lead' (reduced below columns lead A) ∧
      (width' = cols ∨ rows ≤ lead') := by
  induction columns generalizing width lead A with
  | nil => exact ⟨width, lead, h, .inl follows.2⟩
  | cons j columns ih =>
    obtain ⟨last, others⟩ := follows.head
    rw [reduced]
    split
    · next room =>
      cases found : pivotRow? A j lead with
      | none => exact ih others (h.skip last found)
      | some pivot => exact ih others (h.step last room found)
    · next full => exact ⟨width, lead, h, .inr (Nat.le_of_not_lt full)⟩

/-- Elimination gives an echelon form with pivots one, and the reduced one if rows above pivots are
cleared as well. -/
theorem reduced_correct (below : Bool) (A : Matrix (Fin rows) (Fin cols) ℚ) :
    (reduced below (List.finRange cols) 0 A).IsRowEchelon ∧
      (∀ i j, (reduced below (List.finRange cols) 0 A).IsLeadingEntry i j →
        reduced below (List.finRange cols) 0 A i j = 1) ∧
      (below = false → (reduced below (List.finRange cols) 0 A).IsReducedRowEchelon) := by
  obtain ⟨width, lead, visited, done⟩ := finish_reduced follows_finRange (visited_zero below A)
  exact visited.finish done

end Reckon.Echelon
