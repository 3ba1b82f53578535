import Reckon.Proofs.Matrix.ExactRun

/-!
# Gauss-Jordan elimination

Without rounding, the two forms that elimination returns are those of the theory: the one reduced
row echelon form that there is, and an echelon form with pivots one in the same places, both with
their entries as they are shown.
-/

namespace Reckon

open Reckon.Echelon

namespace Grid

variable {rows cols : Nat} {g : Grid rows cols}

/-- The entries as rationals. -/
def rational (g : Grid rows cols) : Matrix (Fin rows) (Fin cols) ℚ :=
  fun i j => (g.entry i j).rat

/-- The entries are those of a rational matrix, as they are shown. -/
def Shows (g : Grid rows cols) (A : Matrix (Fin rows) (Fin cols) ℚ) : Prop :=
  ∀ i j, ∃ d : Decimal, d.toRat = A i j ∧ g.entry i j = (Value.number d).rounded 6

/-- A grid is numeric exactly when all of its entries are numbers. -/
theorem isNumeric_iff : g.isNumeric = true ↔ ∀ i j, (g.entry i j).isNumeric = true := by
  simp only [isNumeric, Vector.all_eq_true]
  exact ⟨fun h i j => h j j.isLt i i.isLt, fun h j inside i inside' => h ⟨i, inside'⟩ ⟨j, inside⟩⟩

/-- A grid of numbers stands for its rationals. -/
theorem standsFor_rational (numeric : g.isNumeric = true) : g.StandsFor g.rational :=
  fun i j => Value.standsFor_rat (isNumeric_iff.1 numeric i j)

/-- A grid that stands for a rational matrix shows it once its entries are rounded. -/
theorem StandsFor.shows {A : Matrix (Fin rows) (Fin cols) ℚ} (h : g.StandsFor A) :
    g.prettify.Shows A := by
  intro i j
  obtain ⟨d, number, equal⟩ := h i j
  refine ⟨d, equal, ?_⟩
  rw [prettify, entry_map, number]
  rfl

end Grid

namespace ValueMatrix

variable {m : ValueMatrix}

/-- A reduction that runs exactly shows the reduced form of the rationals. -/
theorem exists_rowReduce (numeric : m.isNumeric = true)
    (exact : m.grid.runsExactly false (List.finRange m.cols) 0 = true) :
    ∃ grid, m.rowReduce = .ok (m.withGrid grid) ∧
      grid.Shows (reduced false (List.finRange m.cols) 0 m.grid.rational) := by
  obtain ⟨g, done, stands⟩ := (Grid.standsFor_rational numeric).reduceColumns exact
  refine ⟨g.prettify, ?_, stands.shows⟩
  rw [rowReduce, Grid.rowReduce, done]
  rfl

/-- An echelon form that runs exactly shows that of the rationals. -/
theorem exists_echelonForm (numeric : m.isNumeric = true)
    (exact : m.grid.runsExactly true (List.finRange m.cols) 0 = true) :
    ∃ grid, m.echelonForm = .ok (m.withGrid grid) ∧
      grid.Shows (reduced true (List.finRange m.cols) 0 m.grid.rational) := by
  obtain ⟨g, done, stands⟩ := (Grid.standsFor_rational numeric).reduceColumns exact
  refine ⟨g.prettify, ?_, stands.shows⟩
  rw [echelonForm, Grid.echelonForm, done]
  rfl

/-- Gauss-Jordan elimination is correct. A matrix of numbers has one reduced row echelon form, and
it has an echelon form with pivots one, zeros below them and pivots in the same places. If no
operation on the way rounds or has no room and no entry that is tested is mistaken for zero, row
reduction returns the first one and the echelon form is the second one, as they are shown. -/
theorem elimination_correct (m : ValueMatrix) (numeric : m.isNumeric = true) :
    ∃ R E : Matrix (Fin m.rows) (Fin m.cols) ℚ,
      (R.IsReducedRowEchelon ∧ RowEquivalent m.grid.rational R ∧
        ∀ R' : Matrix (Fin m.rows) (Fin m.cols) ℚ, R'.IsReducedRowEchelon →
          RowEquivalent m.grid.rational R' → R' = R) ∧
      (E.IsRowEchelon ∧ RowEquivalent m.grid.rational E ∧
        (∀ i j, E.IsLeadingEntry i j → E i j = 1 ∧ ∀ k, i < k → E k j = 0) ∧
        ∀ i j, E.IsLeadingEntry i j ↔ R.IsLeadingEntry i j) ∧
      (m.grid.runsExactly false (List.finRange m.cols) 0 = true →
        ∃ grid, m.rowReduce = .ok (m.withGrid grid) ∧ grid.Shows R) ∧
      (m.grid.runsExactly true (List.finRange m.cols) 0 = true →
        ∃ grid, m.echelonForm = .ok (m.withGrid grid) ∧ grid.Shows E) := by
  obtain ⟨echelon, one, whole⟩ := reduced_correct false m.grid.rational
  obtain ⟨echelon', one', _⟩ := reduced_correct true m.grid.rational
  have equivalent := rowEquivalent_reduced false (List.finRange m.cols) 0 m.grid.rational
  have equivalent' := rowEquivalent_reduced true (List.finRange m.cols) 0 m.grid.rational
  refine ⟨_, _, ⟨whole rfl, equivalent, fun R' isReduced equivalent'' => ?_⟩,
    ⟨echelon', equivalent', fun i j first => ⟨one' i j first, fun k less => ?_⟩, fun i j => ?_⟩,
    exists_rowReduce numeric, exists_echelonForm numeric⟩
  · exact eq_of_isReducedRowEchelon isReduced (whole rfl) (equivalent''.symm.trans equivalent)
  · exact eq_zero_of_le echelon' less first (le_refl j)
  · exact isLeadingEntry_iff echelon' echelon (equivalent'.symm.trans equivalent) i j

/-- A matrix of rank two, for which rows are exchanged and a column is passed over. -/
theorem elimination_correct_rank_two :
    let m : ValueMatrix := ⟨3, 4, ⟨#v[#v[.zero, .one, .ofDigits 2],
      #v[.zero, .ofDigits 2, .ofDigits 4], #v[.ofDigits 2, .ofDigits 3, .ofDigits 8],
      #v[.ofDigits 4, .ofDigits 5, .ofDigits 14]]⟩, by decide⟩
    m.isNumeric = true ∧ m.grid.runsExactly false (List.finRange m.cols) 0 = true ∧
      m.grid.runsExactly true (List.finRange m.cols) 0 = true ∧
      ∃ R E : Matrix (Fin m.rows) (Fin m.cols) ℚ, R.IsReducedRowEchelon ∧ E.IsRowEchelon ∧
        (∃ grid, m.rowReduce = .ok (m.withGrid grid) ∧ grid.Shows R) ∧
        ∃ grid, m.echelonForm = .ok (m.withGrid grid) ∧ grid.Shows E := by
  intro m
  have numeric : m.isNumeric = true := by decide +kernel
  have exact : m.grid.runsExactly false (List.finRange m.cols) 0 = true := by decide +kernel
  have exact' : m.grid.runsExactly true (List.finRange m.cols) 0 = true := by decide +kernel
  obtain ⟨R, E, ⟨isReduced, _⟩, ⟨isEchelon, _⟩, rows, echelon⟩ := elimination_correct m numeric
  exact ⟨numeric, exact, exact', R, E, isReduced, isEchelon, rows exact, echelon exact'⟩

end ValueMatrix

end Reckon
