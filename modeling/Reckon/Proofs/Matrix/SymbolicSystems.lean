import Mathlib.LinearAlgebra.Matrix.Block
import Reckon.Proofs.Matrix.SymbolicRun
import Reckon.Proofs.Matrix.Systems

/-!
# Linear systems with symbolic entries

A system with texts among its entries is solved without computing its pivots, and whether one of
them is zero for some numbers is not seen. But a column without a pivot has only zeros from the lead
on, and rows with a zero were never mixed with texts, so the numbers alone make the matrix singular
then. Otherwise all pivots stand on the diagonal, and every factor and every divisor that was used is
part of the texts that are returned. If these amount to numbers, then so does everything that they
were made of, and going back through the columns the numbers are seen to solve what was left of the
system at each of them, up to the system itself.
-/

namespace Reckon

namespace Echelon

open Matrix

variable {n k : Nat} {A : Matrix (Fin n) (Fin (n + 1)) ℚ} {a a' : Fin (n + 1) → ℚ} {y : Fin n → ℚ}

/-! ## Equations -/

/-- What the right side of an equation leaves when the unknowns from the first columns on that are
left are put in. -/
def remainder (k : Nat) (y : Fin n → ℚ) (a : Fin (n + 1) → ℚ) : ℚ :=
  a (Fin.last n) - ∑ j : Fin n, if k ≤ j.val then a j.castSucc * y j else 0

/-- What an equation leaves depends only on the coefficients that are left. -/
theorem remainder_congr (le : k ≤ n) (same : ∀ b, k ≤ b.val → a b = a' b) :
    remainder k y a = remainder k y a' := by
  have terms : ∀ j : Fin n, (if k ≤ j.val then a j.castSucc * y j else 0) =
      if k ≤ j.val then a' j.castSucc * y j else 0 := by
    intro j
    split
    · next right => rw [same j.castSucc right]
    · rfl
  rw [remainder, remainder, same (Fin.last n) le, Finset.sum_congr rfl fun j _ => terms j]

/-- A multiple of an equation that is added leaves that multiple of what the equation leaves. -/
theorem remainder_add_smul (k : Nat) (y : Fin n → ℚ) (a a' : Fin (n + 1) → ℚ) (c : ℚ) :
    remainder k y (a + c • a') = remainder k y a + c * remainder k y a' := by
  have terms : ∀ j : Fin n, (if k ≤ j.val then (a + c • a') j.castSucc * y j else 0) =
      (if k ≤ j.val then a j.castSucc * y j else 0) +
        c * (if k ≤ j.val then a' j.castSucc * y j else 0) := by
    intro j
    split
    · rw [Pi.add_apply, Pi.smul_apply, smul_eq_mul]
      ring
    · rw [mul_zero, add_zero]
  rw [remainder, Finset.sum_congr rfl fun j _ => terms j, Finset.sum_add_distrib,
    ← Finset.mul_sum, remainder, remainder, Pi.add_apply, Pi.smul_apply, smul_eq_mul]
  ring

/-- A multiple of an equation leaves that multiple of what the equation leaves. -/
theorem remainder_smul (k : Nat) (y : Fin n → ℚ) (a : Fin (n + 1) → ℚ) (c : ℚ) :
    remainder k y (c • a) = c * remainder k y a := by
  have nothing : remainder k y (0 : Fin (n + 1) → ℚ) = 0 := by
    simp [remainder]
  have sum := remainder_add_smul k y 0 a c
  rwa [zero_add, nothing, zero_add] at sum

/-- One unknown more is put in. -/
theorem remainder_eq_sub (r : Fin n) (y : Fin n → ℚ) (a : Fin (n + 1) → ℚ) :
    remainder r y a = remainder (r + 1) y a - a r.castSucc * y r := by
  have terms : ∀ j : Fin n, (if r.val ≤ j.val then a j.castSucc * y j else 0) =
      (if r.val + 1 ≤ j.val then a j.castSucc * y j else 0) +
        if j = r then a r.castSucc * y r else 0 := by
    intro j
    rcases lt_trichotomy j r with left | rfl | right
    · rw [if_neg (by omega), if_neg (by omega), if_neg left.ne, add_zero]
    · rw [if_pos le_rfl, if_neg (by omega), if_pos rfl, zero_add]
    · rw [if_pos (by omega), if_pos (by omega), if_neg right.ne', add_zero]
  rw [remainder, Finset.sum_congr rfl fun j _ => terms j, Finset.sum_add_distrib,
    Finset.sum_ite_eq' Finset.univ r, if_pos (Finset.mem_univ r), remainder]
  ring

/-- Putting an unknown in takes its share from what is left. -/
theorem remainder_update (r : Fin n) (y : Fin n → ℚ) (a : Fin (n + 1) → ℚ) (q : ℚ) :
    remainder r y (Function.update a r.castSucc q) = remainder (r + 1) y a - q * y r := by
  have others : ∀ b : Fin (n + 1), r.val + 1 ≤ b.val → Function.update a r.castSucc q b = a b :=
    fun b right => Function.update_of_ne (Fin.ne_of_gt right) q a
  rw [remainder_eq_sub, remainder_congr r.isLt others, Function.update_self]

/-- With all unknowns put in, the right side is left. -/
theorem remainder_all (y : Fin n → ℚ) (a : Fin (n + 1) → ℚ) :
    remainder n y a = a (Fin.last n) := by
  have none : ∀ j : Fin n, (if n ≤ j.val then a j.castSucc * y j else 0) = 0 := fun j =>
    if_neg (Nat.not_le.2 j.isLt)
  rw [remainder, Finset.sum_congr rfl fun j _ => none j, Finset.sum_const_zero, sub_zero]

/-- Before any unknown is put in, the system leaves how far its product misses the right side. -/
theorem remainder_beside (A : Matrix (Fin n) (Fin n) ℚ) (c y : Fin n → ℚ) (i : Fin n) :
    remainder 0 y (beside A c i) = c i - A.mulVec y i := by
  have terms : ∀ j : Fin n, (if 0 ≤ j.val then beside A c i j.castSucc * y j else 0) =
      A i j * y j := fun j => by rw [if_pos (Nat.zero_le _), beside_castSucc]
  rw [remainder, beside_last, Finset.sum_congr rfl fun j _ => terms j]
  rfl

/-- Without its last column an augmented matrix is the matrix itself. -/
theorem submatrix_beside (A : Matrix (Fin n) (Fin n) ℚ) (c : Fin n → ℚ) :
    (beside A c).submatrix id Fin.castSucc = A := by
  funext i j
  exact beside_castSucc A c i j

/-- A matrix with rows that begin too late for their number is singular. -/
theorem det_eq_zero_of_late {A : Matrix (Fin n) (Fin n) ℚ} (r : Fin n)
    (late : ∀ i j, r ≤ i → j ≤ r → A i j = 0) : A.det = 0 := by
  rw [Matrix.twoBlockTriangular_det A (fun i => i < r) fun i low j left =>
    late i j (not_lt.1 low) left.le]
  rw [Matrix.det_eq_zero_of_column_eq_zero (⟨r, lt_irrefl r⟩ : { i // ¬i < r }) fun i =>
    late i r (not_lt.1 i.2) le_rfl, mul_zero]

/-- Row operations on an augmented matrix make no regular matrix singular. -/
theorem det_eq_zero_of_rowEquivalent {A B : Matrix (Fin n) (Fin (n + 1)) ℚ}
    (h : RowEquivalent A B) (singular : (B.submatrix id Fin.castSucc).det = 0) :
    (A.submatrix id Fin.castSucc).det = 0 := by
  obtain ⟨P, rfl⟩ := h.symm
  have product : (P.val * B).submatrix id Fin.castSucc = P.val * B.submatrix id Fin.castSucc := rfl
  rw [product, Matrix.det_mul, singular, mul_zero]

/-- Pivoting takes a multiple of the pivot row from every other row. -/
theorem pivoted_other_apply {rows cols : Nat} {B : Matrix (Fin rows) (Fin cols) ℚ}
    {i pivot a : Fin rows} {j : Fin cols} (other : a ≠ i) (b : Fin cols) :
    pivoted false B i pivot j a b =
      exchanged B i pivot a b - exchanged B i pivot a j * ((B pivot j)⁻¹ * B pivot b) := by
  have row : exchanged B i pivot i = B pivot := congrArg B (Equiv.swap_apply_left i pivot)
  rw [pivoted, cleared, factors, if_pos ⟨other, fun below => absurd below Bool.false_ne_true⟩]
  simp only [normalized, if_neg other, if_true, Pi.sub_apply, Pi.smul_apply, smul_eq_mul, row]

end Echelon

open Reckon.Echelon

namespace Value

variable {settings : Settings} {s : Scope} {v : Value} {q : ℚ}

/-- A number that stands for a rational amounts to it. -/
theorem StandsFor.amountsTo (h : v.StandsFor q) : v.AmountsTo settings s q := by
  obtain ⟨d, rfl, rfl⟩ := h
  exact amountsTo_number d

/-- Rounding to places that rounds nothing keeps what a value becomes. -/
theorem BecomesExactly.of_rounded {places : Nat}
    (value : (v.rounded places).BecomesExactly settings s q)
    (kept : (v.rounded places).rat = v.rat) : v.BecomesExactly settings s q := by
  cases v with
  | symbolic text => exact value
  | number d =>
    cases shown : (number d).rounded places with
    | symbolic text => exact absurd (rounded_eq_symbolic.1 shown) nofun
    | number d' =>
      rw [shown] at kept value
      exact kept.symm.trans value

end Value

namespace Grid

variable {n k : Nat} {g g' g₁ g₂ : Grid n (n + 1)} {settings : Settings} {s : Scope}
variable {A : Matrix (Fin n) (Fin (n + 1)) ℚ} {r pivot : Fin n} {j : Fin (n + 1)}
variable {reciprocal : Value} {y : Fin n → ℚ}

/-! ## Rows of numbers -/

/-- The rows from the lead on in which a number is left are rows of the matrix as far as they are
numbers, and these rows of the matrix have nothing in the first columns. -/
def IsTracedBy (g : Grid n (n + 1)) (k : Nat) (B : Matrix (Fin n) (Fin (n + 1)) ℚ) : Prop :=
  ∀ i b d, k ≤ i.val → k ≤ b.val → g.entry i b = .number d →
    d.toRat = B i b ∧ ∀ c, c.val < k → B i c = 0

/-- Before the first column every row is traced by the matrix of its numbers. -/
theorem isTracedBy_zero (numbers : ∀ i b d, g.entry i b = .number d → d.toRat = A i b) :
    g.IsTracedBy 0 A := fun i b d _ _ number =>
  ⟨numbers i b d number, fun _ left => absurd left (Nat.not_lt_zero _)⟩

/-- If no row from the lead on has an entry in a column, the matrix is singular. -/
theorem IsTracedBy.det_eq_zero (h : g.IsTracedBy r A)
    (missing : ∀ i, r ≤ i → (g.entry i r.castSucc).StandsFor 0) :
    (A.submatrix id Fin.castSucc).det = 0 := by
  refine det_eq_zero_of_late r fun i c low left => ?_
  obtain ⟨d, number, zero⟩ := missing i low
  obtain ⟨same, before⟩ := h i r.castSucc d low le_rfl number
  rcases left.lt_or_eq with left | rfl
  · exact before c.castSucc left
  · exact same.symm.trans zero

/-- Swapping in a pivot row moves no row above the lead. -/
theorem le_swap {i : Fin n} (pivot : Fin n) (low : r < i) : r ≤ Equiv.swap r pivot i := by
  rw [Equiv.swap_apply_def, if_neg low.ne']
  split
  · exact le_rfl
  · exact low.le

/-- A row that was kept is one of the matrix with the two rows exchanged. -/
theorem IsTracedBy.of_kept {i : Fin n} {b : Fin (n + 1)} {d : Decimal} (h : g.IsTracedBy r A)
    (pivots : Pivots g g₁ r pivot r.castSucc reciprocal) (low : r < i)
    (right : r.castSucc < b) (nothing : (g₁.entry i r.castSucc).StandsFor 0)
    (number : g₁.entry i b = .number d) :
    d.toRat = exchanged A r pivot i b ∧ ∀ c, c.val < r.val + 1 → exchanged A r pivot i c = 0 := by
  obtain ⟨e, entry, zero⟩ := nothing
  rw [pivots.others i low.ne'] at number entry
  have below := le_swap pivot low
  obtain ⟨own, before⟩ := h _ b d below right.le number
  have last := (h _ r.castSucc e below le_rfl entry).1
  refine ⟨own, fun c left => ?_⟩
  rcases Nat.lt_succ_iff_lt_or_eq.1 left with left | same
  · exact before c left
  · obtain rfl : c = r.castSucc := Fin.ext same
    exact last.symm.trans zero

/-- If a row from which a multiple of the pivot's row was taken has a number left, then both rows had
numbers in that column and in the one of the pivot. -/
theorem exists_numbers_of_cleared {i : Fin n} {b : Fin (n + 1)} {d : Decimal} {v : Value}
    (pivots : Pivots g g₁ r pivot j reciprocal) (other : i ≠ r) (apart : b ≠ j)
    (product : Value.Composes .multiply (g₁.entry r b) (g₁.entry i j).negate v)
    (sum : Value.Composes .add (g₁.entry i b) v (.number d)) :
    ∃ t e z c : Decimal, g.entry (Equiv.swap r pivot i) b = .number t ∧
      g.entry (Equiv.swap r pivot i) j = .number e ∧ g.entry pivot b = .number z ∧
      g.entry pivot j = .number c ∧
      d.toRat = t.toRat - e.toRat * (c.toRat⁻¹ * z.toRat) := by
  obtain ⟨t, u, own, rfl, total, -⟩ := sum.exists_numbers rfl
  obtain ⟨x, f, scaled, negated, taken, -⟩ := product.exists_numbers rfl
  obtain ⟨e, entry, rfl⟩ := Value.withSign_eq_number.1
    (show (g₁.entry i j).withSign .negative = .number f from negated)
  have divided := pivots.scaled b apart
  rw [scaled] at divided
  obtain ⟨z, q, brought, rfl, quotient, -⟩ := divided.exists_numbers rfl
  obtain ⟨one, c, isOne, divisor, inverse, -⟩ := pivots.divided.exists_numbers rfl
  cases isOne
  rw [pivots.others i other] at own entry
  refine ⟨t, e, z, c, own, entry, brought, divisor, ?_⟩
  rw [total, taken, quotient, inverse, Decimal.toRat_neg, Decimal.toRat_one]
  ring

/-- A pivot that is text makes text of its row and of every row that it is taken from. -/
theorem IsTracedBy.step_of_text {text : String} (h : g.IsTracedBy r A)
    (pivots : Pivots g g₁ r pivot r.castSucc reciprocal)
    (clears : ∀ i, ClearsRow g₁ g₂ r r.castSucc i)
    (entry : g.entry pivot r.castSucc = .symbolic text) :
    g₂.IsTracedBy (r + 1) (exchanged A r pivot) := by
  intro i b d low right number
  cases clears i with
  | kept same nothing =>
    rw [same] at number
    exact h.of_kept pivots low right (nothing.resolve_left (Fin.ne_of_gt low)) number
  | cleared other p products sums _ =>
    have apart : b ≠ r.castSucc := Fin.ne_of_gt right
    have sum := sums b apart
    rw [number] at sum
    obtain ⟨_, _, _, _, _, _, _, divisor, _⟩ :=
      exists_numbers_of_cleared pivots other apart (products b) sum
    rw [entry] at divisor
    cases divisor

/-- A pivot that is not zero does to the numbers what it does to the rows of the matrix. -/
theorem IsTracedBy.step_of_ne_zero (h : g.IsTracedBy r A) (le : r ≤ pivot)
    (pivots : Pivots g g₁ r pivot r.castSucc reciprocal)
    (clears : ∀ i, ClearsRow g₁ g₂ r r.castSucc i) (nonzero : A pivot r.castSucc ≠ 0) :
    g₂.IsTracedBy (r + 1) (pivoted false A r pivot r.castSucc) := by
  intro i b d low right number
  have other : i ≠ r := Fin.ne_of_gt low
  cases clears i with
  | kept same nothing =>
    rw [same] at number
    obtain ⟨own, before⟩ :=
      h.of_kept pivots low right (nothing.resolve_left other) number
    have zero : exchanged A r pivot i r.castSucc = 0 := before r.castSucc (Nat.lt_succ_self _)
    have row : ∀ b, pivoted false A r pivot r.castSucc i b = exchanged A r pivot i b := fun b => by
      rw [pivoted_other_apply other, zero, zero_mul, sub_zero]
    exact ⟨own.trans (row b).symm, fun c left => (row c).trans (before c left)⟩
  | cleared _ p products sums _ =>
    have apart : b ≠ r.castSucc := Fin.ne_of_gt right
    have sum := sums b apart
    rw [number] at sum
    obtain ⟨t, e, z, c', own, mine, brought, divisor, total⟩ :=
      exists_numbers_of_cleared pivots other apart (products b) sum
    have below := le_swap pivot low
    have right' : r.val ≤ b.val := Nat.le_of_succ_le right
    obtain ⟨sameT, before⟩ := h _ b t below right' own
    obtain ⟨sameE, -⟩ := h _ r.castSucc e below le_rfl mine
    obtain ⟨sameZ, before'⟩ := h pivot b z le right' brought
    obtain ⟨sameC, -⟩ := h pivot r.castSucc c' le le_rfl divisor
    refine ⟨?_, fun c left => ?_⟩
    · rw [total, pivoted_other_apply other, sameT, sameE, sameZ, sameC]
      rfl
    · rcases Nat.lt_succ_iff_lt_or_eq.1 left with left | same
      · rw [pivoted_other_apply other, before' c left, mul_zero, mul_zero, sub_zero]
        exact before c left
      · obtain rfl : c = r.castSucc := Fin.ext same
        exact pivoted_other nonzero other fun below => absurd below Bool.false_ne_true

/-- A column with a pivot leaves rows of a row equivalent matrix. -/
theorem IsTracedBy.exists_step (h : g.IsTracedBy r A) (le : r ≤ pivot)
    (pivots : Pivots g g₁ r pivot r.castSucc reciprocal)
    (clears : ∀ i, ClearsRow g₁ g₂ r r.castSucc i) :
    ∃ B, RowEquivalent A B ∧ g₂.IsTracedBy (r + 1) B := by
  cases entry : g.entry pivot r.castSucc with
  | symbolic text =>
    exact ⟨_, rowEquivalent_exchanged A r pivot, h.step_of_text pivots clears entry⟩
  | number c =>
    have nonzero : A pivot r.castSucc ≠ 0 := by
      rw [← (h pivot r.castSucc c le le_rfl entry).1]
      exact (entry ▸ pivots.divided).ne_zero
    exact ⟨_, rowEquivalent_pivoted false r pivot nonzero,
      h.step_of_ne_zero le pivots clears nonzero⟩

/-! ## Going back through the columns -/

/-- From a column on all entries amount to numbers, and the numbers solve what is left of the system:
the unknowns before that column stand alone in their rows, and the others have been put in. -/
def IsSolvedBy (settings : Settings) (s : Scope) (y : Fin n → ℚ) (k : Nat) (g : Grid n (n + 1)) :
    Prop :=
  ∃ A : Matrix (Fin n) (Fin (n + 1)) ℚ,
    (∀ i b, k ≤ b.val → (g.entry i b).AmountsTo settings s (A i b)) ∧
      ∀ i, remainder k y (A i) = if i.val < k then y i else 0

/-- Rows that are each solved from a column on make a grid that is. -/
theorem isSolvedBy_of_rows (rows : ∀ i, ∃ a : Fin (n + 1) → ℚ,
    (∀ b : Fin (n + 1), k ≤ b.val → (g.entry i b).AmountsTo settings s (a b)) ∧
      remainder k y a = if i.val < k then y i else 0) : g.IsSolvedBy settings s y k := by
  choose A amounts solved using rows
  exact ⟨A, amounts, solved⟩

/-- Where only the last column is left, it is the solution. -/
theorem isSolvedBy_all (amounts : ∀ i, (g.entry i (Fin.last n)).AmountsTo settings s (y i)) :
    g.IsSolvedBy settings s y n := by
  refine ⟨fun i _ => y i, fun i b right => ?_, fun i => ?_⟩
  · obtain rfl : b = Fin.last n := Fin.ext (Nat.le_antisymm (Nat.le_of_lt_succ b.isLt) right)
    exact amounts i
  · rw [remainder_all, if_pos i.isLt]

/-- What a row amounts to from a column on, put together from that column and the later ones. -/
theorem amountsTo_update {i : Fin n} {a : Fin (n + 1) → ℚ} {q : ℚ}
    (own : (g.entry i r.castSucc).AmountsTo settings s q)
    (others : ∀ b, r.castSucc < b → (g.entry i b).AmountsTo settings s (a b)) {b : Fin (n + 1)}
    (right : r.val ≤ b.val) :
    (g.entry i b).AmountsTo settings s (Function.update a r.castSucc q b) := by
  rcases (Fin.le_def.2 right : r.castSucc ≤ b).lt_or_eq with right | rfl
  · rw [Function.update_of_ne right.ne']
    exact others b right
  · rwa [Function.update_self]

/-- What the entries of a row amounted to before it was treated. -/
theorem ClearsRow.exists_amounts {i : Fin n} {a own : Fin (n + 1) → ℚ}
    (clears : ClearsRow g g' r r.castSucc i) (other : i ≠ r) (readable : g.IsReadable)
    (row : ∀ b, r.castSucc < b → (g'.entry i b).AmountsTo settings s (a b))
    (pivotRow : ∀ b, r.castSucc < b → (g.entry r b).AmountsTo settings s (own b)) :
    ∃ e : ℚ, (g.entry i r.castSucc).AmountsTo settings s e ∧
      ∀ b, r.castSucc < b → (g.entry i b).AmountsTo settings s ((a + e • own) b) := by
  cases clears with
  | kept same nothing =>
    refine ⟨0, (nothing.resolve_left other).amountsTo, fun b right => ?_⟩
    have kept := row b right
    rw [same] at kept
    rwa [zero_smul, add_zero]
  | cleared _ p products sums _ =>
    -- Every product shows what the factor amounts to, and the last column always has one.
    have parts : ∀ b, r.castSucc < b → ∃ t f, (g.entry i b).AmountsTo settings s t ∧
        (g.entry i r.castSucc).AmountsTo settings s (-f) ∧ a b = t + own b * f := by
      intro b right
      have product := (products b).isOperand rfl (readable r b) (readable i r.castSucc).negate
      obtain ⟨t, u, before, added, total, -⟩ :=
        (sums b (ne_of_gt right)).of_amountsTo rfl (readable i b) product (row b right)
      obtain ⟨x, f, scaled, factor, taken, -⟩ :=
        (products b).of_amountsTo rfl (readable r b) (readable i r.castSucc).negate added
      obtain rfl := scaled.unique (pivotRow b right)
      refine ⟨t, f, before, factor.of_negate (readable i r.castSucc), ?_⟩
      rw [total, taken]
    obtain ⟨_, f, _, factor, _⟩ := parts (Fin.last n) (Fin.castSucc_lt_last r)
    refine ⟨-f, factor, fun b right => ?_⟩
    obtain ⟨t, f', before, factor', total⟩ := parts b right
    obtain rfl : f' = f := neg_injective (factor'.unique factor)
    have value : (a + (-f') • own) b = t := by
      rw [Pi.add_apply, Pi.smul_apply, smul_eq_mul, total]
      ring
    rwa [value]

/-- Before the rows were treated, the numbers solved the system just as well. -/
theorem IsSolvedBy.of_clears (h : g'.IsSolvedBy settings s y (r + 1))
    (clears : ∀ i, ClearsRow g g' r r.castSucc i) (one : g.entry r r.castSucc = .one)
    (readable : g.IsReadable) : g.IsSolvedBy settings s y r := by
  obtain ⟨A, amounts, solved⟩ := h
  have pivotRow : ∀ b, r.castSucc < b → (g.entry r b).AmountsTo settings s (A r b) := by
    intro b right
    have own := amounts r b right
    cases clears r with
    | kept same _ => rwa [same] at own
    | cleared other => exact absurd rfl other
  refine isSolvedBy_of_rows fun i => ?_
  by_cases own : i = r
  · subst own
    refine ⟨Function.update (A i) i.castSucc 1, fun b right => ?_, ?_⟩
    · exact amountsTo_update (one ▸ Value.amountsTo_number .one) pivotRow right
    · rw [remainder_update, solved, if_pos (Nat.lt_succ_self _), one_mul, sub_self,
        if_neg (lt_irrefl i.val)]
  · obtain ⟨e, factor, others⟩ := (clears i).exists_amounts own readable (amounts i) pivotRow
    refine ⟨Function.update (A i + e • A r) r.castSucc e, fun b right => ?_, ?_⟩
    · exact amountsTo_update factor others right
    · rw [remainder_update, remainder_add_smul, solved, solved, if_pos (Nat.lt_succ_self _),
        add_sub_cancel_right]
      exact if_congr ⟨fun low => lt_of_le_of_ne (Nat.le_of_lt_succ low) (Fin.val_ne_of_ne own),
        fun low => Nat.lt_succ_of_lt low⟩ rfl rfl

/-- The row that was brought up amounts to a multiple of what it was made into. -/
theorem Pivots.exists_amounts {a : Fin (n + 1) → ℚ}
    (pivots : Pivots g g' r pivot r.castSucc reciprocal) (readable : g.IsReadable)
    (row : ∀ b, r.castSucc < b → (g'.entry r b).AmountsTo settings s (a b)) :
    ∃ c : ℚ, (g.entry pivot r.castSucc).AmountsTo settings s c ∧
      ∀ b, r.castSucc < b → (g.entry pivot b).AmountsTo settings s ((c • a) b) := by
  have divisor := pivots.divided.isOperand rfl (Value.isOperand_number .one)
    (readable pivot r.castSucc)
  -- Every column shows what the reciprocal amounts to, and the last one is always there.
  have parts : ∀ b, r.castSucc < b → ∃ z c, (g.entry pivot b).AmountsTo settings s z ∧
      (g.entry pivot r.castSucc).AmountsTo settings s c ∧ c ≠ 0 ∧ a b = z / c := by
    intro b right
    obtain ⟨z, q, brought, quotient, product, -⟩ := (pivots.scaled b (ne_of_gt right)).of_amountsTo
      rfl (readable pivot b) divisor (row b right)
    obtain ⟨one, c, isOne, entry, inverse, nonzero⟩ := pivots.divided.of_amountsTo rfl
      (Value.isOperand_number .one) (readable pivot r.castSucc) quotient
    obtain rfl := isOne.unique (Value.amountsTo_number .one)
    refine ⟨z, c, brought, entry, nonzero rfl, ?_⟩
    rw [product, inverse, Decimal.toRat_one, mul_one_div]
  obtain ⟨_, c, _, entry, _, _⟩ := parts (Fin.last n) (Fin.castSucc_lt_last r)
  refine ⟨c, entry, fun b right => ?_⟩
  obtain ⟨z, c', brought, entry', nonzero, value⟩ := parts b right
  obtain rfl := entry.unique entry'
  have same : (c • a) b = z := by
    rw [Pi.smul_apply, smul_eq_mul, value, mul_div_cancel₀ z nonzero]
  rwa [same]

/-- Before a pivot was brought up, the numbers solved the system just as well. -/
theorem IsSolvedBy.of_pivots (h : g'.IsSolvedBy settings s y r)
    (pivots : Pivots g g' r pivot r.castSucc reciprocal) (le : r ≤ pivot)
    (readable : g.IsReadable) : g.IsSolvedBy settings s y r := by
  obtain ⟨A, amounts, solved⟩ := h
  obtain ⟨c, entry, others⟩ := pivots.exists_amounts readable fun b right => amounts r b right.le
  have one : A r r.castSucc = 1 := by
    have own := amounts r r.castSucc le_rfl
    rw [pivots.one] at own
    exact own.unique (Value.amountsTo_number .one)
  have left : remainder (r + 1) y (A r) = y r := by
    have own := solved r
    rwa [remainder_eq_sub, one, one_mul, if_neg (lt_irrefl r.val), sub_eq_zero] at own
  refine isSolvedBy_of_rows fun i => ?_
  by_cases brought : i = pivot
  · subst brought
    refine ⟨Function.update (c • A r) r.castSucc c,
      fun b right => amountsTo_update entry others right, ?_⟩
    rw [remainder_update, remainder_smul, left, sub_self, if_neg (Nat.not_lt.2 le)]
  · refine ⟨A (Equiv.swap r pivot i), fun b right => ?_, ?_⟩
    · have apart : Equiv.swap r pivot i ≠ r := fun same =>
        brought ((Equiv.swap_apply_eq_iff.1 same).trans (Equiv.swap_apply_left r pivot))
      have own := amounts (Equiv.swap r pivot i) b right
      rwa [pivots.others _ apart, Equiv.swap_apply_self] at own
    · rw [solved]
      by_cases lead : i = r
      · rw [lead, Equiv.swap_apply_left, if_neg (Nat.not_lt.2 le), if_neg (lt_irrefl r.val)]
      · rw [Equiv.swap_apply_of_ne_of_ne lead brought]

/-! ## The run -/

/-- In a regular system every column has a pivot. -/
theorem IsTracedBy.normalizePivot_ne_none (h : g.IsTracedBy r A)
    (regular : (A.submatrix id Fin.castSucc).det ≠ 0) (readable : g.IsReadable)
    (decisive : ∀ i, r ≤ i → (g.entry i r.castSucc).isDecisive = true) :
    g.normalizePivot r r.castSucc ≠ .ok none := by
  intro normal
  have missing := eq_none_of_normalizePivot normal
  exact regular (h.det_eq_zero fun i low => (readable i r.castSucc).standsFor_zero
    (decisive i low) (isZero_of_findPivot?_eq_none missing low))

/-- What one column with its pivot keeps: the way there that the system is regular by its numbers,
the way back that it is solved. -/
theorem IsTracedBy.exists_regular_step (h : g.IsTracedBy r A)
    (regular : (A.submatrix id Fin.castSucc).det ≠ 0) (readable : g.IsReadable) (le : r ≤ pivot)
    (pivots : Pivots g g₁ r pivot r.castSucc reciprocal)
    (clears : ∀ i, ClearsRow g₁ g₂ r r.castSucc i) :
    (∃ B, g₂.IsTracedBy (r + 1) B ∧ (B.submatrix id Fin.castSucc).det ≠ 0) ∧ g₂.IsReadable ∧
      (g₂.IsSolvedBy settings s y (r + 1) → g.IsSolvedBy settings s y r) := by
  have readable₁ := pivots.isReadable readable
  obtain ⟨B, equivalent, traced⟩ := h.exists_step le pivots clears
  refine ⟨⟨B, traced, fun singular => ?_⟩, ClearsRow.isReadable clears readable₁, fun solved => ?_⟩
  · exact regular (det_eq_zero_of_rowEquivalent equivalent singular)
  · exact (solved.of_clears clears pivots.one readable₁).of_pivots pivots le readable

/-- A run that rounds nothing on a regular system leaves entries that can stand in texts, and numbers
that those of the last column amount to solve the system. -/
theorem isSolvedBy_of_run {columns : List (Fin (n + 1))} (le : k ≤ n) (follows : Follows k columns)
    (readable : g.IsReadable) (traced : g.IsTracedBy k A)
    (regular : (A.submatrix id Fin.castSucc).det ≠ 0)
    (tests : g.mistakesNone columns k = true) (exact : reductionIsExact columns k g = true)
    (done : reduceColumns false columns k g = .ok g') :
    g'.IsReadable ∧ ((∀ i, (g'.entry i (Fin.last n)).AmountsTo settings s (y i)) →
      g.IsSolvedBy settings s y k) := by
  induction columns generalizing k g A with
  | nil =>
    have full := follows.2
    rw [List.length_nil] at full
    omega
  | cons j columns ih =>
    obtain ⟨first, later⟩ := follows.head
    rw [mistakesNone] at tests
    rw [reductionIsExact] at exact
    rw [reduceColumns] at done
    by_cases room : k < n
    · rw [dif_pos room] at tests exact done
      obtain ⟨r, rfl⟩ : ∃ r : Fin n, k = r.val := ⟨⟨k, room⟩, rfl⟩
      obtain rfl : j = r.castSucc := Fin.ext first
      rw [Bool.and_eq_true] at tests exact
      obtain ⟨search, tests⟩ := tests
      obtain ⟨exact, rest⟩ := exact
      simp only [Fin.eta] at search tests exact rest done
      cases normal : g.normalizePivot r r.castSucc with
      | error fault =>
        rw [normal] at done
        cases done
      | ok result =>
        cases result with
        | none =>
          exact absurd normal (traced.normalizePivot_ne_none regular readable fun i low =>
            isDecisive_of_all search (Nat.not_lt.2 low))
        | some g₁ =>
          simp only [normal, Bool.and_eq_true] at tests rest done
          obtain ⟨pivot, reciprocal, below, pivots⟩ := exists_pivots exact normal
          cases cleared : (targets false r).foldlM (clearEntry r r.castSucc) g₁ with
          | error fault =>
            rw [cleared] at done
            cases done
          | ok g₂ =>
            simp only [cleared] at tests rest done
            have clears := clearsRow_of_targets (pivots.isReadable readable)
              (fun a => isDecisive_of_all tests.1) rest.1 cleared
            obtain ⟨⟨B, traced₂, regular₂⟩, readable₂, back⟩ :=
              traced.exists_regular_step regular readable below pivots clears
            obtain ⟨last, solved⟩ := ih room later readable₂ traced₂ regular₂ tests.2 rest.2 done
            exact ⟨last, fun amounts => back (solved amounts)⟩
    · rw [dif_neg room] at done
      cases done
      obtain rfl : k = n := by omega
      exact ⟨readable, isSolvedBy_all⟩

/-- Some numbers in the places of the symbolic entries make the matrix regular. -/
def MayBeRegular (g : Grid n n) : Prop :=
  ∃ A : Matrix (Fin n) (Fin n) ℚ, (∀ i j d, g.entry i j = .number d → d.toRat = A i j) ∧ A.det ≠ 0

/-- A matrix that becomes a regular one may be regular. -/
theorem mayBeRegular_of_becomesExactly {g : Grid n n} {A : Matrix (Fin n) (Fin n) ℚ}
    (becomes : ∀ i j, (g.entry i j).BecomesExactly settings s (A i j)) (regular : A.det ≠ 0) :
    g.MayBeRegular := by
  refine ⟨A, fun i j d number => ?_, regular⟩
  have own := becomes i j
  rwa [number] at own

/-- Whether a system is solved without rounding a number, also not to the places that are shown. -/
def solveIsExact (g : Grid n n) (b : Fin n → Value) : Bool :=
  (g.augment (column b)).reductionIsExact (List.finRange (n + 1)) 0 &&
    match reduceColumns false (List.finRange (n + 1)) 0 (g.augment (column b)) with
    | .error _ => false
    | .ok reduced => (List.finRange n).all fun i =>
      ((reduced.entry i (Fin.last n)).rounded displayPlaces).rat ==
        (reduced.entry i (Fin.last n)).rat

/-- What is returned is the last column as it is shown. -/
theorem exists_of_solve {g : Grid n n} {b : Fin n → Value} {xs : List Value}
    (solved : g.solve (column b) = .ok xs) :
    ∃ reduced, reduceColumns false (List.finRange (n + 1)) 0 (g.augment (column b)) = .ok reduced ∧
      xs = List.ofFn fun i => (reduced.entry i (Fin.last n)).rounded displayPlaces := by
  have last : ∃ shown, (g.augment (column b)).rowReduce = .ok shown ∧
      (.ok ((List.finRange n).map fun i => shown.entry i (Fin.last n)) : Except Fault _) = .ok xs := by
    rw [solve] at solved
    split at solved
    · obtain ⟨_, _, solved⟩ := bind_eq_ok.1 solved
      exact bind_eq_ok.1 solved
    · exact bind_eq_ok.1 solved
  obtain ⟨shown, reduction, result⟩ := last
  cases done : reduceColumns false (List.finRange (n + 1)) 0 (g.augment (column b)) with
  | error fault =>
    rw [rowReduce, done] at reduction
    cases reduction
  | ok reduced =>
    rw [rowReduce, done] at reduction
    cases reduction
    cases result
    refine ⟨reduced, rfl, ?_⟩
    rw [List.ofFn_eq_map]
    simp only [prettify, entry_map]

/-- What holds of the entries of a grid and of the right side holds of the augmented grid. -/
theorem forall_entry_augment {P : Fin n → Fin (n + 1) → Value → Prop} {g : Grid n n}
    {b : Fin n → Value} (entries : ∀ i j, P i j.castSucc (g.entry i j))
    (right : ∀ i, P i (Fin.last n) (b i)) (i : Fin n) (j : Fin (n + 1)) :
    P i j ((g.augment (column b)).entry i j) := by
  refine Fin.lastCases ?_ (fun j => ?_) j
  · rw [entry_augment_last]
    exact right i
  · rw [entry_augment_castSucc]
    exact entries i j

/-- Numbers that what was returned becomes solve the system. -/
theorem isSolvedBy_of_solve {g : Grid n n} {b : Fin n → Value} {reduced : Grid n (n + 1)}
    (readable : (g.augment (column b)).IsReadable) (regular : g.MayBeRegular)
    (tests : (g.augment (column b)).mistakesNone (List.finRange (n + 1)) 0 = true)
    (exact : g.solveIsExact b = true)
    (done : reduceColumns false (List.finRange (n + 1)) 0 (g.augment (column b)) = .ok reduced)
    (becomes : ∀ i, ((reduced.entry i (Fin.last n)).rounded displayPlaces).BecomesExactly settings s
      (y i)) : (g.augment (column b)).IsSolvedBy settings s y 0 := by
  simp only [solveIsExact, done, Bool.and_eq_true, List.all_eq_true, beq_iff_eq] at exact
  obtain ⟨exact, shown⟩ := exact
  obtain ⟨A, numbers, regular⟩ := regular
  have traced : (g.augment (column b)).IsTracedBy 0 (beside A fun i => (b i).rat) := by
    refine isTracedBy_zero (forall_entry_augment
      (P := fun i j v => ∀ d, v = .number d → d.toRat = beside A (fun i => (b i).rat) i j)
      (fun i j d number => ?_) fun i d number => ?_)
    · rw [beside_castSucc]
      exact numbers i j d number
    · rw [beside_last, number]
      rfl
  rw [← submatrix_beside A fun i => (b i).rat] at regular
  obtain ⟨last, back⟩ :=
    isSolvedBy_of_run n.zero_le follows_finRange readable traced regular tests exact done
  refine back fun i => ?_
  exact ((becomes i).of_rounded (shown i (List.mem_finRange i))).amountsTo (last i (Fin.last n))

/-- What is left of the system before the first column is the system. -/
theorem IsSolvedBy.mulVec_eq {g : Grid n n} {b : Fin n → Value} {A : Matrix (Fin n) (Fin n) ℚ}
    {c : Fin n → ℚ} (h : (g.augment (column b)).IsSolvedBy settings s y 0)
    (entries : ∀ i j, (g.entry i j).AmountsTo settings s (A i j))
    (right : ∀ i, (b i).AmountsTo settings s (c i)) : A.mulVec y = c := by
  obtain ⟨B, amounts, solved⟩ := h
  have same : ∀ i j, B i j = beside A c i j := by
    refine fun i j => (amounts i j j.val.zero_le).unique (forall_entry_augment
      (P := fun i j v => v.AmountsTo settings s (beside A c i j)) (fun i j => ?_) (fun i => ?_) i j)
    · rw [beside_castSucc]
      exact entries i j
    · rw [beside_last]
      exact right i
  funext i
  have zero := solved i
  rw [remainder_congr n.zero_le fun j _ => same i j, remainder_beside,
    if_neg (Nat.not_lt_zero _), sub_eq_zero] at zero
  exact zero.symm

end Grid

namespace ValueMatrix

variable {n : Nat}

/-- Solving returns solutions, symbolic entries or not, unless the numbers in the matrix make it
singular whatever the symbolic entries are. If solving rounds no number and mistakes none for zero,
then wherever names are bound so that the entries, the right side and what was returned become
numbers without rounding, these numbers solve the system. -/
theorem symbolic_solution_correct (g : Grid n n) (positive : 0 < n) (b : Fin n → Value)
    (entries : ∀ i j, (g.entry i j).IsEvaluated) (right : ∀ i, (b i).IsEvaluated)
    (regular : g.MayBeRegular)
    (tests : (g.augment (Grid.column b)).mistakesNone (List.finRange (n + 1)) 0 = true)
    (exact : g.solveIsExact b = true) (xs : List Value)
    (solved : (ofGrid g positive).solve (List.ofFn b) = .ok xs) :
    ∃ x : Fin n → Value, xs = List.ofFn x ∧
      ∀ (settings : Settings) (s : Scope) (A : Matrix (Fin n) (Fin n) ℚ) (c y : Fin n → ℚ),
        (∀ i j, (g.entry i j).BecomesExactly settings s (A i j)) →
        (∀ i, (b i).BecomesExactly settings s (c i)) →
        (∀ i, (x i).BecomesExactly settings s (y i)) → A.mulVec y = c := by
  rw [solve_ofGrid] at solved
  obtain ⟨reduced, done, rfl⟩ := Grid.exists_of_solve solved
  have readable : (g.augment (Grid.column b)).IsReadable :=
    Grid.forall_entry_augment (fun i j => (entries i j).isOperand) fun i => (right i).isOperand
  refine ⟨_, rfl, fun settings s A c y becomes becomesRight becomesSolution => ?_⟩
  have solution := Grid.isSolvedBy_of_solve readable regular tests exact done becomesSolution
  exact solution.mulVec_eq (fun i j => (becomes i j).amountsTo (entries i j).isOperand)
    fun i => (becomesRight i).amountsTo (right i).isOperand

/-- A system in which rows are exchanged and the pivot `a` is only known as text. -/
theorem symbolic_solution_correct_exchanged :
    let g : Grid 2 2 := ⟨#v[#v[.zero, .ofDigits 2], #v[.symbolic "a", .one]]⟩
    let b : Fin 2 → Value := ![.symbolic "c", .ofDigits 4]
    let x : Fin 2 → Value :=
      ![.symbolic "(2 + ((c * (1 / a)) * -0.5))", .symbolic "(c * (1 / a))"]
    let s : Scope := Scope.root.bindAll [("a", .ofDigits 4), ("c", .number .two)]
    let A : Matrix (Fin 2) (Fin 2) ℚ := !![0, 4; 2, 1]
    (∀ i j, (g.entry i j).IsEvaluated) ∧ (∀ i, (b i).IsEvaluated) ∧ g.MayBeRegular ∧
      (g.augment (Grid.column b)).mistakesNone (List.finRange 3) 0 = true ∧
      g.solveIsExact b = true ∧
      (ofGrid g (by decide)).solve (List.ofFn b) = .ok (List.ofFn x) ∧
      (∀ i, (x i).BecomesExactly {} s (![7 / 4, 1 / 2] i)) ∧
      A.mulVec ![7 / 4, 1 / 2] = ![2, 4] := by
  intro g b x s A
  have deep : 1 ≤ ({} : Settings).maxDepth := by decide
  have plain : ∀ i j, (g.entry i j).plainAmount? s = some (A i j) := by decide +kernel
  have plainSides : ∀ i, (b i).plainAmount? s = some (![2, 4] i) := by decide +kernel
  have matrix := fun i j => Value.of_plainAmount?_eq_some deep (plain i j)
  have sides := fun i => Value.of_plainAmount?_eq_some deep (plainSides i)
  have entries : ∀ i j, (g.entry i j).IsEvaluated := fun i j => (matrix i j).1
  have right : ∀ i, (b i).IsEvaluated := fun i => (sides i).1
  have tests : (g.augment (Grid.column b)).mistakesNone (List.finRange 3) 0 = true := by
    decide +kernel
  have exact : g.solveIsExact b = true := by decide +kernel
  have solved : (ofGrid g (by decide)).solve (List.ofFn b) = .ok (List.ofFn x) := by
    decide +kernel
  let q : Expr := .binary .multiply (.plain "c") (.binary .divide (.number .one) (.plain "a"))
  let half : Decimal := ⟨false, 5, 1, by decide, by decide⟩
  let e : Expr := .binary .add (.number .two)
    (.binary .multiply q (.signed .negative (.number half)))
  have solution : ∀ i, (x i).BecomesExactly {} s (![7 / 4, 1 / 2] i) :=
    Fin.forall_fin_two.2
      ⟨⟨e, ⟨false, 1750, 3, by decide, by decide⟩, by decide +kernel, by decide +kernel,
          by decide +kernel, by decide +kernel⟩,
        ⟨q, ⟨false, 50, 2, by decide, by decide⟩, by decide +kernel, by decide +kernel,
          by decide +kernel, by decide +kernel⟩⟩
  have regular : g.MayBeRegular := by
    refine Grid.mayBeRegular_of_becomesExactly (fun i j => (matrix i j).2) ?_
    rw [Matrix.det_fin_two]
    decide +kernel
  obtain ⟨x', same, correct⟩ :=
    symbolic_solution_correct g (by decide) b entries right regular tests exact _ solved
  obtain rfl := List.ofFn_injective same
  exact ⟨entries, right, regular, tests, exact, solved, solution,
    correct {} s A _ _ (fun i j => (matrix i j).2) (fun i => (sides i).2) solution⟩

/-! ## What may be no solution -/

/-- What one might expect of solving: whatever is returned for a system with a symbolic entry, with
no number rounded, solves the system wherever all of it becomes numbers without rounding. -/
def SolvesWherever (settings : Settings) (s : Scope) (g : Grid n n) (positive : 0 < n)
    (b : Fin n → Value) : Prop :=
  (∀ i j, (g.entry i j).IsEvaluated) → (∀ i, (b i).IsEvaluated) → g.isNumeric = false →
    g.solveIsExact b = true →
      ∀ x : Fin n → Value, (ofGrid g positive).solve (List.ofFn b) = .ok (List.ofFn x) →
        ∀ (A : Matrix (Fin n) (Fin n) ℚ) (c y : Fin n → ℚ),
          (∀ i j, (g.entry i j).BecomesExactly settings s (A i j)) →
            (∀ i, (b i).BecomesExactly settings s (c i)) →
              (∀ i, (x i).BecomesExactly settings s (y i)) → A.mulVec y = c

/-- A system with a symbolic entry whose solution misses the right side for some numbers refutes
what one might expect. -/
theorem not_solvesWherever {settings : Settings} {s : Scope} {g : Grid n n} {positive : 0 < n}
    {b : Fin n → Value} (A : Matrix (Fin n) (Fin n) ℚ) (c y : Fin n → ℚ) (x : Fin n → Value)
    (deep : 1 ≤ settings.maxDepth)
    (entries : ∀ i j, (g.entry i j).plainAmount? s = some (A i j))
    (right : ∀ i, (b i).plainAmount? s = some (c i)) (isSymbolic : g.isNumeric = false)
    (exact : g.solveIsExact b = true)
    (solved : (ofGrid g positive).solve (List.ofFn b) = .ok (List.ofFn x))
    (solution : ∀ i, (x i).BecomesExactly settings s (y i)) (wrong : A.mulVec y ≠ c) :
    ¬SolvesWherever settings s g positive b := by
  intro claim
  have matrix := fun i j => Value.of_plainAmount?_eq_some deep (entries i j)
  have sides := fun i => Value.of_plainAmount?_eq_some deep (right i)
  exact wrong (claim (fun i j => (matrix i j).1) (fun i => (sides i).1) isSymbolic exact x solved
    A c y (fun i j => (matrix i j).2) (fun i => (sides i).2) solution)

/-- A singular matrix with a symbolic entry is not refused, and a pivot is found in the right side. -/
theorem not_solvesWherever_singular :
    ¬SolvesWherever {} (Scope.root.bindAll [("a", .one)])
      ⟨#v[#v[.symbolic "a", .zero], #v[.zero, .zero]]⟩ (by decide) ![.one, .one] := by
  refine not_solvesWherever !![1, 0; 0, 0] ![1, 1] ![0, 1] ![.zero, .one] (by decide)
    (by decide +kernel) (by decide +kernel) (by decide +kernel) (by decide +kernel)
    (by decide +kernel) ?solution (by decide +kernel)
  case solution =>
    exact Fin.forall_fin_two.2 ⟨Value.becomesExactly_number (by decide +kernel),
      Value.becomesExactly_number (by decide +kernel)⟩

/-- A system of a singular matrix may have solutions, but the unknown of a pivot is not returned in
its own place. -/
theorem not_solvesWherever_latePivot :
    ¬SolvesWherever {} (Scope.root.bindAll [("a", .one)])
      ⟨#v[#v[.zero, .zero], #v[.symbolic "a", .zero]]⟩ (by decide) ![.one, .zero] := by
  let e : Expr := .binary .multiply (.number .one) (.binary .divide (.number .one) (.plain "a"))
  refine not_solvesWherever !![0, 1; 0, 0] ![1, 0] ![1, 0] ![.symbolic "(1 * (1 / a))", .zero]
    (by decide) (by decide +kernel) (by decide +kernel) (by decide +kernel) (by decide +kernel)
    (by decide +kernel) ?solution (by decide +kernel)
  case solution =>
    exact Fin.forall_fin_two.2
      ⟨⟨e, .one, by decide +kernel, by decide +kernel, by decide +kernel, by decide +kernel⟩,
        Value.becomesExactly_number (by decide +kernel)⟩

/-- An entry that is not zero but counts as zero is not cleared. -/
theorem not_solvesWherever_negligible :
    ¬SolvesWherever {} (Scope.root.bindAll [("a", .one)])
      ⟨#v[#v[.symbolic "a", .number ⟨false, 1, 7, by decide, by decide⟩], #v[.zero, .one]]⟩
      (by decide) ![.one, .zero] := by
  let quotient : Expr := .binary .divide (.number .one) (.plain "a")
  let times (d : Decimal) : Expr := .binary .multiply (.number d) quotient
  let e : Expr := .binary .add (times .one)
    (.binary .multiply (.number .zero) (.signed .negative (times .zero)))
  refine not_solvesWherever !![1, 0; 1 / 10 ^ 7, 1] ![1, 0] ![1, 0]
    ![.symbolic "((1 * (1 / a)) + (0 * -(0 * (1 / a))))", .zero] (by decide) (by decide +kernel)
    (by decide +kernel) (by decide +kernel) (by decide +kernel) (by decide +kernel) ?solution
    (by decide +kernel)
  case solution =>
    exact Fin.forall_fin_two.2
      ⟨⟨e, .one, by decide +kernel, by decide +kernel, by decide +kernel, by decide +kernel⟩,
        Value.becomesExactly_number (by decide +kernel)⟩

/-- What is returned for a singular matrix, with solutions or without, or where entries next to zero
are met, may be no solution. -/
theorem symbolic_solution_may_fail :
    ¬SolvesWherever {} (Scope.root.bindAll [("a", .one)])
        ⟨#v[#v[.symbolic "a", .zero], #v[.zero, .zero]]⟩ (by decide) ![.one, .one] ∧
      ¬SolvesWherever {} (Scope.root.bindAll [("a", .one)])
        ⟨#v[#v[.zero, .zero], #v[.symbolic "a", .zero]]⟩ (by decide) ![.one, .zero] ∧
      ¬SolvesWherever {} (Scope.root.bindAll [("a", .one)])
        ⟨#v[#v[.symbolic "a", .number ⟨false, 1, 7, by decide, by decide⟩], #v[.zero, .one]]⟩
        (by decide) ![.one, .zero] :=
  ⟨not_solvesWherever_singular, not_solvesWherever_latePivot, not_solvesWherever_negligible⟩

end ValueMatrix

end Reckon
