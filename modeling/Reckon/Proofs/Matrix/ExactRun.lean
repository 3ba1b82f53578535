import Mathlib.Algebra.Order.Field.Rat
import Mathlib.Tactic.FieldSimp
import Reckon.Matrix.Square
import Reckon.Proofs.Decimal.Value
import Reckon.Proofs.Matrix.Reduction

/-!
# Runs without rounding

Decimal elimination follows elimination over the rationals as long as no operation rounds or has no
room, and as long as no entry is mistaken for zero. Such a run is described here operation by
operation, in the order in which elimination takes them, and it ends with the exact result.
-/

namespace Reckon

open Reckon.Echelon

/-! ## Values as rationals -/

namespace Value

/-- The rational of a number; text has none and counts as zero. -/
def rat : Value → ℚ
  | number d => d.toRat
  | symbolic _ => 0

/-- The value is a number that is equal to the rational. -/
def StandsFor (v : Value) (q : ℚ) : Prop :=
  ∃ d, v = number d ∧ d.toRat = q

/-- Whether the result is a number that is equal to the rational. -/
def gives (q : ℚ) : Except Fault Value → Bool
  | .ok (number d) => d.toRat == q
  | .ok (symbolic _) => false
  | .error _ => false

/-- Whether a value that is tested for zero is zero or well away from it. -/
def isDecisive (v : Value) : Bool :=
  v.rat == 0 || decide (1 / 10 ^ 7 < |v.rat|)

variable {v : Value} {q : ℚ}

/-- What stands for a rational has that rational. -/
theorem StandsFor.rat_eq (h : v.StandsFor q) : v.rat = q := by
  obtain ⟨d, rfl, same⟩ := h
  exact same

/-- A number stands for its rational. -/
theorem standsFor_rat (h : v.isNumeric = true) : v.StandsFor v.rat := by
  cases v with
  | number d => exact ⟨d, rfl, rfl⟩
  | symbolic text => cases h

/-- A result that is checked to give a rational is a number that stands for it. -/
theorem exists_of_gives {result : Except Fault Value} (h : gives q result = true) :
    ∃ v, result = .ok v ∧ v.StandsFor q := by
  unfold gives at h
  split at h
  · next d => exact ⟨number d, rfl, d, rfl, beq_iff_eq.1 h⟩
  · cases h
  · cases h

/-- The negated number stands for the negated rational. -/
theorem StandsFor.negate (h : v.StandsFor q) : v.negate.StandsFor (-q) := by
  obtain ⟨d, rfl, rfl⟩ := h
  refine ⟨d.neg, rfl, ?_⟩
  rw [Decimal.toRat, Decimal.toRat, Decimal.signed_neg, Rat.neg_mkRat]
  rfl

/-- The magnitude of a decimal is its mantissa over a power of ten. -/
theorem abs_toRat (d : Decimal) : |d.toRat| = d.mantissa / 10 ^ d.scale := by
  have magnitude : |d.signed| = (d.mantissa : ℤ) := by
    rw [Int.abs_eq_natAbs, Decimal.signed_natAbs]
  rw [Decimal.toRat, Rat.mkRat_eq_div, abs_div, ← Int.cast_abs, magnitude]
  simp

/-- A number is negligible exactly when it is at most one part in ten million. -/
theorem isNegligible_iff (d : Decimal) : d.isNegligible = true ↔ |d.toRat| ≤ 1 / 10 ^ 7 := by
  have scale : (0 : ℚ) < 10 ^ d.scale := by positivity
  have own : d.abs.signed = d.mantissa := rfl
  have integers : d.isNegligible = true ↔ (d.mantissa : ℤ) * 10 ^ 7 ≤ 10 ^ d.scale := by
    rw [Decimal.isNegligible, Decimal.le, Decimal.compare, bne_iff_ne, ne_eq, compare_gt_iff_gt,
      not_lt, own]
    change (d.mantissa : ℤ) * 10 ^ 7 ≤ 1 * 10 ^ d.scale ↔ _
    rw [one_mul]
  rw [integers, abs_toRat, div_le_div_iff₀ scale (by positivity), one_mul]
  exact_mod_cast Iff.rfl

/-- A number that is zero or well away from it counts as zero exactly when it is zero. -/
theorem StandsFor.isZero_iff (h : v.StandsFor q) (decisive : v.isDecisive = true) :
    v.isZero = true ↔ q = 0 := by
  have same := h.rat_eq
  obtain ⟨d, rfl, rfl⟩ := h
  rw [isDecisive, same, Bool.or_eq_true, beq_iff_eq, decide_eq_true_eq] at decisive
  rw [isZero, isNegligible_iff]
  constructor
  · intro small
    exact decisive.resolve_right (not_lt.2 small)
  · intro zero
    rw [zero, abs_zero]
    positivity

end Value

namespace Grid

variable {rows cols : Nat}

/-! ## Runs without rounding -/

/-- Whether scaling a row takes exact products only. -/
def scalesExactly (g : Grid rows cols) (i : Fin rows) (factor : Value) : Bool :=
  (List.finRange cols).all fun b =>
    Value.gives ((g.entry i b).rat * factor.rat) ((g.entry i b).mul factor)

/-- Whether adding a multiple of a row takes exact products and sums only. -/
def addsExactly (g : Grid rows cols) (target source : Fin rows) (factor : Value) : Bool :=
  (List.finRange cols).all fun b =>
    Value.gives ((g.entry source b).rat * factor.rat) ((g.entry source b).mul factor) &&
      match (g.entry source b).mul factor with
      | .error _ => false
      | .ok scaled =>
        Value.gives ((g.entry target b).rat + scaled.rat) ((g.entry target b).add scaled)

/-- Whether bringing up a pivot rounds nothing. All entries from the row on are tested, those behind
the pivot when they are cleared. -/
def pivotsExactly (g : Grid rows cols) (i : Fin rows) (j : Fin cols) : Bool :=
  ((List.finRange rows).all fun a => decide (a < i) || (g.entry a j).isDecisive) &&
    match g.findPivot? j i with
    | none => true
    | some pivot =>
      let swapped := g.swapRows i pivot
      Value.gives (swapped.entry i j).rat⁻¹ (Value.one.div (swapped.entry i j)) &&
        match Value.one.div (swapped.entry i j) with
        | .error _ => false
        | .ok reciprocal => swapped.scalesExactly i reciprocal

/-- Whether clearing an entry rounds nothing. -/
def clearsExactly (pivot : Fin rows) (j : Fin cols) (g : Grid rows cols) (i : Fin rows) : Bool :=
  decide (i = pivot) || (g.entry i j).isDecisive &&
    ((g.entry i j).isZero || g.addsExactly i pivot (g.entry i j).negate)

/-- Whether clearing entries one after the other rounds nothing. -/
def clearsAllExactly (pivot : Fin rows) (j : Fin cols) : List (Fin rows) → Grid rows cols → Bool
  | [], _ => true
  | i :: others, g =>
    clearsExactly pivot j g i &&
      match clearEntry pivot j g i with
      | .error _ => false
      | .ok g => clearsAllExactly pivot j others g

/-- Whether elimination through the columns rounds nothing, has room for everything and mistakes no
entry for zero. -/
def runsExactly (below : Bool) : List (Fin cols) → (lead : Nat) → Grid rows cols → Bool
  | [], _, _ => true
  | j :: columns, lead, g =>
    if h : lead < rows then
      g.pivotsExactly ⟨lead, h⟩ j &&
        match g.normalizePivot ⟨lead, h⟩ j with
        | .error _ => false
        | .ok none => runsExactly below columns lead g
        | .ok (some g) =>
          clearsAllExactly ⟨lead, h⟩ j (targets below ⟨lead, h⟩) g &&
            match (targets below ⟨lead, h⟩).foldlM (clearEntry ⟨lead, h⟩ j) g with
            | .error _ => false
            | .ok g => runsExactly below columns (lead + 1) g
    else true

/-! ## Row operations on values -/

/-- The entries are numbers, equal to those of a rational matrix. -/
def StandsFor (g : Grid rows cols) (A : Matrix (Fin rows) (Fin cols) ℚ) : Prop :=
  ∀ i j, (g.entry i j).StandsFor (A i j)

variable {g : Grid rows cols} {A : Matrix (Fin rows) (Fin cols) ℚ}

/-- Changing all columns goes through if it does for each of them. -/
theorem exists_changeColumns {f : Vector Value rows → Except Fault (Vector Value rows)}
    {F : Vector Value rows → Vector Value rows}
    (h : ∀ b : Fin cols, f (g.columns.get b) = .ok (F (g.columns.get b))) :
    ∃ g', orFault (g.changeColumns f) = .ok g' ∧
      ∀ a b, g'.entry a b = (F (g.columns.get b)).get a := by
  have all : ∀ column ∈ g.columns.toList, f column = .ok (F column) := by
    intro column mem
    obtain ⟨b, inside, rfl⟩ := Vector.getElem_of_mem (Vector.mem_toList_iff.1 mem)
    exact h ⟨b, inside⟩
  refine ⟨⟨g.columns.map F⟩, by rw [changeColumns_of_ok all, orFault], fun a b => ?_⟩
  have column : (g.columns.map F).get b = F (g.columns.get b) := Vector.getElem_map F b.isLt
  exact congrArg (fun column => column.get a) column

/-- Setting the entries of a row goes through if each of them can be computed from its column. -/
theorem exists_changeRow {i : Fin rows} {entryOf : Vector Value rows → Except Fault Value}
    {p : Fin cols → Value} (h : ∀ b : Fin cols, entryOf (g.columns.get b) = .ok (p b)) :
    ∃ g', orFault (g.changeColumns fun column =>
        match entryOf column with
        | .error fault => .error fault
        | .ok value => .ok (column.set i value i.isLt)) = .ok g' ∧
      ∀ a b, g'.entry a b = if a = i then p b else g.entry a b := by
  let F : Vector Value rows → Vector Value rows := fun column =>
    match entryOf column with
    | .error _ => column
    | .ok value => column.set i value i.isLt
  have changed : ∀ b : Fin cols, F (g.columns.get b) = (g.columns.get b).set i (p b) i.isLt := by
    intro b
    simp only [F, h b]
  obtain ⟨g', done, entries⟩ := exists_changeColumns (g := g) (F := F) (f := fun column =>
    match entryOf column with
    | .error fault => .error fault
    | .ok value => .ok (column.set i value i.isLt)) fun b => by simp only [F, h b]
  refine ⟨g', done, fun a b => ?_⟩
  rw [entries, changed]
  change ((g.columns.get b).set i (p b) i.isLt)[a.val] =
    if a = i then p b else (g.columns.get b)[a.val]
  simp only [Vector.getElem_set, Fin.ext_iff, eq_comm]

/-- Scaling a row goes through if its products have room. -/
theorem exists_scaleRow {i : Fin rows} {factor : Value} {p : Fin cols → Value}
    (h : ∀ b, (g.entry i b).mul factor = .ok (p b)) :
    ∃ g', orFault (g.scaleRow i factor) = .ok g' ∧
      ∀ a b, g'.entry a b = if a = i then p b else g.entry a b :=
  exists_changeRow h

/-- Adding a multiple of a row goes through if its products and sums have room. -/
theorem exists_addScaledRow {target source : Fin rows} {factor : Value} {p q : Fin cols → Value}
    (hp : ∀ b, (g.entry source b).mul factor = .ok (p b))
    (hq : ∀ b, (g.entry target b).add (p b) = .ok (q b)) :
    ∃ g', orFault (g.addScaledRow target source factor) = .ok g' ∧
      ∀ a b, g'.entry a b = if a = target then q b else g.entry a b := by
  let entryOf : Vector Value rows → Except Fault Value := fun column =>
    match (column.get source).mul factor with
    | .error fault => .error fault
    | .ok scaled => (column.get target).add scaled
  have product : ∀ b : Fin cols, ((g.columns.get b).get source).mul factor = .ok (p b) := hp
  have sum : ∀ b : Fin cols, entryOf (g.columns.get b) = .ok (q b) := by
    intro b
    simp only [entryOf, product b]
    exact hq b
  obtain ⟨g', done, entries⟩ := exists_changeRow (i := target) sum
  refine ⟨g', ?_, entries⟩
  rw [← done, addScaledRow]
  congr 2
  funext column
  simp only [entryOf]
  cases (column.get source).mul factor <;> rfl

/-! ## Steps of a run -/

/-- Swapped rows of values stand for swapped rows of rationals. -/
theorem standsFor_swapRows (h : g.StandsFor A) (a b : Fin rows) :
    (g.swapRows a b).StandsFor (exchanged A a b) := by
  intro i j
  rw [entry_swapRows, exchanged, Equiv.swap_apply_def]
  split
  · exact h b j
  · split
    · exact h a j
    · exact h i j

/-- Scaling a row without rounding. -/
theorem StandsFor.scaleRow (h : g.StandsFor A) {i : Fin rows} {factor : Value} {q : ℚ}
    (scale : factor.StandsFor q) (exact : g.scalesExactly i factor = true) :
    ∃ g', orFault (g.scaleRow i factor) = .ok g' ∧
      g'.StandsFor fun a => if a = i then q • A i else A a := by
  rw [scalesExactly, List.all_eq_true] at exact
  have products : ∀ b, ∃ v, (g.entry i b).mul factor = .ok v ∧ v.StandsFor (A i b * q) := by
    intro b
    have given := exact b (List.mem_finRange b)
    rw [(h i b).rat_eq, scale.rat_eq] at given
    exact Value.exists_of_gives given
  choose p product stands using products
  obtain ⟨g', done, entries⟩ := exists_scaleRow product
  refine ⟨g', done, fun a b => ?_⟩
  rw [entries]
  dsimp only
  split
  · rw [Pi.smul_apply, smul_eq_mul, mul_comm]
    exact stands b
  · exact h a b

/-- Adding a multiple of a row without rounding. -/
theorem StandsFor.addScaledRow (h : g.StandsFor A) {target source : Fin rows} {factor : Value}
    {q : ℚ} (scale : factor.StandsFor q) (exact : g.addsExactly target source factor = true) :
    ∃ g', orFault (g.addScaledRow target source factor) = .ok g' ∧
      g'.StandsFor fun a => if a = target then A target + q • A source else A a := by
  rw [addsExactly, List.all_eq_true] at exact
  have sums : ∀ b, ∃ v w, (g.entry source b).mul factor = .ok v ∧
      (g.entry target b).add v = .ok w ∧ w.StandsFor (A target b + q * A source b) := by
    intro b
    have given := exact b (List.mem_finRange b)
    rw [Bool.and_eq_true] at given
    obtain ⟨v, product, equal⟩ := Value.exists_of_gives given.1
    have sum := given.2
    simp only [product] at sum
    rw [equal.rat_eq, (h source b).rat_eq, (h target b).rat_eq, scale.rat_eq, mul_comm] at sum
    obtain ⟨w, added, stands⟩ := Value.exists_of_gives sum
    exact ⟨v, w, product, added, stands⟩
  choose p q' product sum stands using sums
  obtain ⟨g', done, entries⟩ := exists_addScaledRow product sum
  refine ⟨g', done, fun a b => ?_⟩
  rw [entries]
  dsimp only
  split
  · exact stands b
  · exact h a b

/-- An entry may be set to another value that stands for the same rational. -/
theorem StandsFor.set (h : g.StandsFor A) {i : Fin rows} {j : Fin cols} {v : Value}
    (same : v.StandsFor (A i j)) : (g.set i j v).StandsFor A := by
  intro a b
  rw [entry_set]
  split
  · next here =>
    obtain ⟨rfl, rfl⟩ := here
    exact same
  · exact h a b

/-- The search for a pivot finds the same row as with exact numbers. -/
theorem StandsFor.findPivot? (h : g.StandsFor A) {j : Fin cols} {start : Nat}
    (decisive : ∀ a : Fin rows, start ≤ a.val → (g.entry a j).isDecisive = true) :
    g.findPivot? j start = pivotRow? A j start := by
  rw [Grid.findPivot?, pivotRow?]
  congr 1
  funext a
  by_cases le : start ≤ a.val
  · rw [decide_eq_true le, Bool.true_and, Bool.true_and, Bool.eq_iff_iff, Bool.not_eq_true',
      Bool.eq_false_iff, ne_eq, (h a j).isZero_iff (decisive a le), decide_eq_true_eq]
  · rw [decide_eq_false le, Bool.false_and, Bool.false_and]

/-- Without a pivot in the column nothing happens. -/
theorem normalizePivot_of_none {i : Fin rows} {j : Fin cols}
    (missing : g.findPivot? j i = none) : g.normalizePivot i j = .ok none := by
  rw [normalizePivot, missing]

/-- Bringing up a pivot without rounding. -/
theorem StandsFor.normalizePivot (h : g.StandsFor A) {i pivot : Fin rows} {j : Fin cols}
    (found : g.findPivot? j i = some pivot) (entry : A pivot j ≠ 0)
    (exact : g.pivotsExactly i j = true) :
    ∃ g', g.normalizePivot i j = .ok (some g') ∧
      g'.StandsFor (normalized (exchanged A i pivot) i j) := by
  have swapped := standsFor_swapRows h i pivot
  rw [pivotsExactly, found, Bool.and_eq_true] at exact
  have steps := exact.2
  simp only [Bool.and_eq_true] at steps
  obtain ⟨reciprocal, divided, inverse⟩ := Value.exists_of_gives steps.1
  have scales := steps.2
  simp only [divided] at scales
  rw [(swapped i j).rat_eq] at inverse
  obtain ⟨g', scaled, stands⟩ := swapped.scaleRow inverse scales
  have isOne : Value.one.StandsFor (normalized (exchanged A i pivot) i j i j) := by
    rw [normalized_self entry]
    exact ⟨.one, rfl, by decide⟩
  refine ⟨g'.set i j .one, ?_, StandsFor.set stands isOne⟩
  rw [Grid.normalizePivot, found]
  simp only [divided, scaled, bind, Except.bind]

/-- The matrix with an entry cleared by the row of a pivot. -/
def clearedAt (A : Matrix (Fin rows) (Fin cols) ℚ) (pivot i : Fin rows) (j : Fin cols) :
    Matrix (Fin rows) (Fin cols) ℚ :=
  fun a => if a = i ∧ a ≠ pivot then A a - A a j • A pivot else A a

/-- Clearing an entry without rounding. -/
theorem StandsFor.clearEntry (h : g.StandsFor A) {pivot i : Fin rows} {j : Fin cols}
    (one : A pivot j = 1) (exact : clearsExactly pivot j g i = true) :
    ∃ g', Grid.clearEntry pivot j g i = .ok g' ∧ g'.StandsFor (clearedAt A pivot i j) := by
  rw [clearsExactly, Bool.or_eq_true, decide_eq_true_eq, Bool.and_eq_true, Bool.or_eq_true] at exact
  rw [Grid.clearEntry]
  by_cases own : i = pivot
  · refine ⟨g, by rw [decide_eq_true own, Bool.true_or, if_pos rfl], fun a b => ?_⟩
    rw [clearedAt, if_neg fun target => target.2 (target.1.trans own)]
    exact h a b
  · obtain ⟨decisive, tested⟩ := exact.resolve_left own
    rw [decide_eq_false own, Bool.false_or]
    cases zero : (g.entry i j).isZero with
    | true =>
      have entry : A i j = 0 := ((h i j).isZero_iff decisive).1 zero
      refine ⟨g, by rw [if_pos rfl], fun a b => ?_⟩
      rw [clearedAt]
      split
      · next target =>
        rw [target.1, entry, zero_smul, sub_zero]
        exact h i b
      · exact h a b
    | false =>
      have adds := tested.resolve_left (by rw [zero]; exact Bool.false_ne_true)
      obtain ⟨g', added, stands⟩ := h.addScaledRow (h i j).negate adds
      have same : (fun a => if a = i then A i + -A i j • A pivot else A a) =
          clearedAt A pivot i j := by
        funext a
        rw [clearedAt]
        by_cases target : a = i
        · rw [if_pos target, if_pos ⟨target, target ▸ own⟩, target, neg_smul, sub_eq_add_neg]
        · rw [if_neg target, if_neg fun both => target both.1]
      rw [same] at stands
      have isZero : Value.zero.StandsFor (clearedAt A pivot i j i j) := by
        refine ⟨.zero, rfl, ?_⟩
        rw [clearedAt, if_pos ⟨rfl, own⟩, Pi.sub_apply, Pi.smul_apply, one, smul_eq_mul, mul_one,
          sub_self]
        decide
      refine ⟨g'.set i j .zero, ?_, StandsFor.set stands isZero⟩
      rw [if_neg Bool.false_ne_true, added]
      rfl

/-- Clearing entries one after the other is clearing them at once: the row of the pivot does not
change on the way. -/
theorem StandsFor.clearEntries (h : g.StandsFor A) {pivot : Fin rows} {j : Fin cols}
    (one : A pivot j = 1) {targets : List (Fin rows)}
    (exact : clearsAllExactly pivot j targets g = true) :
    ∃ g', targets.foldlM (Grid.clearEntry pivot j) g = .ok g' ∧ g'.StandsFor fun a =>
      if a ≠ pivot ∧ a ∈ targets then A a - A a j • A pivot else A a := by
  induction targets generalizing g A with
  | nil => exact ⟨g, rfl, fun a b => by simpa using h a b⟩
  | cons i others ih =>
    rw [clearsAllExactly, Bool.and_eq_true] at exact
    obtain ⟨g', cleared, stands⟩ := h.clearEntry one exact.1
    have later := exact.2
    simp only [cleared] at later
    have kept : clearedAt A pivot i j pivot = A pivot := by
      rw [clearedAt, if_neg fun target => target.2 rfl]
    obtain ⟨g'', done, result⟩ := ih stands (by rw [kept, one]) later
    refine ⟨g'', ?_, ?_⟩
    · rw [List.foldlM_cons, cleared]
      exact done
    · rw [kept] at result
      -- An entry that was cleared is zero, so clearing it again does nothing.
      have same : (fun a => if a ≠ pivot ∧ a ∈ others then
            clearedAt A pivot i j a - clearedAt A pivot i j a j • A pivot
          else clearedAt A pivot i j a) =
          fun a => if a ≠ pivot ∧ a ∈ i :: others then A a - A a j • A pivot else A a := by
        funext a
        by_cases own : a = pivot
        · have untouched : clearedAt A pivot i j a = A a := by
            rw [clearedAt, if_neg fun target => target.2 own]
          rw [if_neg fun both => both.1 own, if_neg fun both => both.1 own, untouched]
        · by_cases first : a = i
          · have clear : clearedAt A pivot i j a = A a - A a j • A pivot := by
              rw [clearedAt, if_pos ⟨first, own⟩]
            have zero : clearedAt A pivot i j a j = 0 := by
              rw [clear, Pi.sub_apply, Pi.smul_apply, one, smul_eq_mul, mul_one, sub_self]
            rw [zero, zero_smul, sub_zero, ite_self, if_pos ⟨own, first ▸ List.mem_cons_self⟩,
              clear]
          · have untouched : clearedAt A pivot i j a = A a := by
              rw [clearedAt, if_neg fun target => first target.1]
            have members : a ∈ i :: others ↔ a ∈ others := by
              rw [List.mem_cons, or_iff_right first]
            rw [untouched]
            simp only [members]
      rw [same] at result
      exact result

/-- The rows that a pivot clears are all others, or those below it. -/
theorem mem_targets {below : Bool} {pivot i : Fin rows} :
    i ∈ targets below pivot ↔ (below = true → pivot < i) := by
  rw [targets, List.mem_filter, Bool.or_eq_true, Bool.not_eq_true', decide_eq_true_eq]
  cases below <;> simp

/-- Clearing the column of a pivot without rounding. -/
theorem StandsFor.clearTargets (h : g.StandsFor A) {below : Bool} {pivot : Fin rows} {j : Fin cols}
    (one : A pivot j = 1)
    (exact : clearsAllExactly pivot j (targets below pivot) g = true) :
    ∃ g', (targets below pivot).foldlM (Grid.clearEntry pivot j) g = .ok g' ∧
      g'.StandsFor (cleared below A pivot j) := by
  obtain ⟨g', done, stands⟩ := h.clearEntries one exact
  refine ⟨g', done, fun a b => ?_⟩
  have result := stands a b
  rw [cleared, factors]
  simp only [mem_targets] at result
  split
  · next target =>
    rw [if_pos target] at result
    exact result
  · next target =>
    rw [if_neg target] at result
    rw [zero_smul, sub_zero]
    exact result

/-- A run without rounding ends with the matrix that exact elimination ends with. -/
theorem StandsFor.reduceColumns (h : g.StandsFor A) {below : Bool} {columns : List (Fin cols)}
    {lead : Nat} (exact : runsExactly below columns lead g = true) :
    ∃ g', Grid.reduceColumns below columns lead g = .ok g' ∧
      g'.StandsFor (reduced below columns lead A) := by
  induction columns generalizing g A lead with
  | nil => exact ⟨g, rfl, h⟩
  | cons j columns ih =>
    rw [runsExactly] at exact
    rw [Grid.reduceColumns, reduced]
    by_cases room : lead < rows
    · rw [dif_pos room, Bool.and_eq_true] at exact
      rw [dif_pos room, dif_pos room]
      obtain ⟨pivots, later⟩ := exact
      have decisive : ∀ a : Fin rows, lead ≤ a.val → (g.entry a j).isDecisive = true := by
        intro a le
        rw [pivotsExactly, Bool.and_eq_true, List.all_eq_true] at pivots
        have tested := pivots.1 a (List.mem_finRange a)
        rw [Bool.or_eq_true, decide_eq_true_eq] at tested
        exact tested.resolve_left fun less => Nat.not_lt.2 le (Fin.lt_def.1 less)
      have search : g.findPivot? j lead = pivotRow? A j lead := h.findPivot? decisive
      cases found : pivotRow? A j lead with
      | none =>
        rw [found] at search
        have nothing : g.normalizePivot ⟨lead, room⟩ j = .ok none := normalizePivot_of_none search
        simp only [nothing] at later ⊢
        exact ih h later
      | some pivot =>
        rw [found] at search
        have entry := (of_pivotRow?_eq_some found).2
        obtain ⟨g', normal, stands⟩ := h.normalizePivot search entry pivots
        simp only [normal, Bool.and_eq_true] at later ⊢
        obtain ⟨g'', cleared, stands⟩ := stands.clearTargets (normalized_self entry) later.1
        have others := later.2
        simp only [cleared] at others ⊢
        exact ih stands others
    · rw [dif_neg room, dif_neg room]
      exact ⟨g, rfl, h⟩

end Grid

end Reckon
