import Reckon.Proofs.Evaluation.Amounts
import Reckon.Proofs.Matrix.Idempotence

/-!
# Elimination with symbolic entries

Elimination composes texts where it cannot compute. What it did to a row is described here by the
operations that made the new entries from the old ones, for numbers and texts alike: a row was
brought up and divided by its pivot, and from every other row a multiple of it was taken, unless
there was nothing to clear.
-/

namespace Reckon

/-- A value that counts as zero and can stand in a text is the number zero. -/
theorem Value.IsOperand.standsFor_zero {v : Value} (operand : v.IsOperand)
    (decisive : v.isDecisive = true) (zero : v.isZero = true) : v.StandsFor 0 := by
  cases v with
  | number d =>
    have nothing := Value.rat_eq_zero_of_isDecisive rfl decisive zero
    exact ⟨d, rfl, nothing⟩
  | symbolic text =>
    rw [operand.isZero_eq_false] at zero
    cases zero

namespace Grid

variable {rows cols : Nat} {g g' g₁ : Grid rows cols} {i pivot : Fin rows} {j : Fin cols}

/-! ## Runs that round no number -/

/-- Whether scaling a row rounds no number. -/
def scaleIsExact (g : Grid rows cols) (i : Fin rows) (factor : Value) : Bool :=
  (List.finRange cols).all fun b => Value.combinesExactly .multiply (g.entry i b) factor

/-- Whether adding a multiple of a row rounds no number. -/
def addIsExact (g : Grid rows cols) (target source : Fin rows) (factor : Value) : Bool :=
  (List.finRange cols).all fun b =>
    Value.combinesExactly .multiply (g.entry source b) factor &&
      match (g.entry source b).mul factor with
      | .error _ => false
      | .ok scaled => Value.combinesExactly .add (g.entry target b) scaled

/-- Whether bringing up a pivot rounds no number. -/
def pivotIsExact (g : Grid rows cols) (i : Fin rows) (j : Fin cols) : Bool :=
  match g.findPivot? j i with
  | none => true
  | some pivot =>
    let swapped := g.swapRows i pivot
    Value.combinesExactly .divide .one (swapped.entry i j) &&
      match Value.one.div (swapped.entry i j) with
      | .error _ => false
      | .ok reciprocal => swapped.scaleIsExact i reciprocal

/-- Whether clearing an entry rounds no number. -/
def clearIsExact (pivot : Fin rows) (j : Fin cols) (g : Grid rows cols) (i : Fin rows) : Bool :=
  decide (i = pivot) || (g.entry i j).isZero || g.addIsExact i pivot (g.entry i j).negate

/-- Whether Gauss-Jordan elimination through the columns rounds no number. Where there is text on
either side of an operator, nothing is computed. -/
def reductionIsExact : List (Fin cols) → (lead : Nat) → Grid rows cols → Bool
  | [], _, _ => true
  | j :: columns, lead, g =>
    if h : lead < rows then
      g.pivotIsExact ⟨lead, h⟩ j &&
        match g.normalizePivot ⟨lead, h⟩ j with
        | .error _ => false
        | .ok none => reductionIsExact columns lead g
        | .ok (some g) =>
          passes (clearIsExact ⟨lead, h⟩ j) (clearEntry ⟨lead, h⟩ j) (targets false ⟨lead, h⟩) g &&
            match (targets false ⟨lead, h⟩).foldlM (clearEntry ⟨lead, h⟩ j) g with
            | .error _ => false
            | .ok g => reductionIsExact columns (lead + 1) g
    else true

/-! ## What was done to a row -/

/-- Every entry can stand in a larger text. -/
def IsReadable (g : Grid rows cols) : Prop :=
  ∀ a b, (g.entry a b).IsOperand

/-- A pivot was brought up and its row divided by it. -/
structure Pivots (g g' : Grid rows cols) (i pivot : Fin rows) (j : Fin cols) (reciprocal : Value) :
    Prop where
  divided : Value.Composes .divide .one (g.entry pivot j) reciprocal
  scaled : ∀ b, b ≠ j → Value.Composes .multiply (g.entry pivot b) reciprocal (g'.entry i b)
  one : g'.entry i j = .one
  others : ∀ a, a ≠ i → ∀ b, g'.entry a b = g.entry (Equiv.swap i pivot a) b

/-- A row was kept, because there was nothing to clear, or a multiple of the pivot's row was added
that clears the entry. -/
inductive ClearsRow (g g' : Grid rows cols) (pivot : Fin rows) (j : Fin cols) (i : Fin rows) : Prop
  | kept (same : ∀ b, g'.entry i b = g.entry i b)
      (nothing : i = pivot ∨ (g.entry i j).StandsFor 0)
  | cleared (other : i ≠ pivot) (p : Fin cols → Value)
      (products : ∀ b, Value.Composes .multiply (g.entry pivot b) (g.entry i j).negate (p b))
      (sums : ∀ b, b ≠ j → Value.Composes .add (g.entry i b) (p b) (g'.entry i b))
      (zero : g'.entry i j = .zero)

/-- A pivot that is brought up without rounding pivots the grid. -/
theorem exists_pivots (exact : g.pivotIsExact i j = true)
    (done : g.normalizePivot i j = .ok (some g')) :
    ∃ pivot reciprocal, i ≤ pivot ∧ Pivots g g' i pivot j reciprocal := by
  obtain ⟨pivot, reciprocal, p, found, divided, product, entries⟩ := exists_of_normalizePivot done
  have own : ∀ b, (g.swapRows i pivot).entry i b = g.entry pivot b := fun b => by
    rw [entry_swapRows, if_pos rfl]
  simp only [own] at divided product
  simp only [pivotIsExact, found, own, divided, Bool.and_eq_true, scaleIsExact, List.all_eq_true]
    at exact
  obtain ⟨quotient, products⟩ := exact
  refine ⟨pivot, reciprocal, (of_findPivot?_eq_some found).1, ⟨divided, quotient⟩,
    fun b other => ?_, ?_, fun a other b => ?_⟩
  · rw [entries, if_neg fun here => other here.2.symm, if_pos rfl]
    exact ⟨product b, products b (List.mem_finRange b)⟩
  · rw [entries, if_pos ⟨rfl, rfl⟩]
  · rw [entries, if_neg fun here => other here.1.symm, if_neg other, entry_swapRows, if_neg other,
      Equiv.swap_apply_def, if_neg other]
    split <;> rfl

/-- What clearing one entry did: its row was treated and the others were kept, that of the pivot in
any case. -/
theorem clearsRow_of_clearEntry (operand : (g.entry i j).IsOperand)
    (decisive : i ≠ pivot → (g.entry i j).isDecisive = true)
    (exact : clearIsExact pivot j g i = true) (done : clearEntry pivot j g i = .ok g') :
    ClearsRow g g' pivot j i ∧ ∀ a, a ≠ i ∨ a = pivot → ∀ b, g'.entry a b = g.entry a b := by
  by_cases skipped : i = pivot ∨ (g.entry i j).isZero = true
  · have kept : clearEntry pivot j g i = .ok g := by
      rw [clearEntry, if_pos (by rwa [Bool.or_eq_true, decide_eq_true_eq])]
    cases kept.symm.trans done
    refine ⟨.kept (fun _ => rfl) ?_, fun _ _ _ => rfl⟩
    by_cases own : i = pivot
    · exact .inl own
    · exact .inr (operand.standsFor_zero (decisive own) (skipped.resolve_left own))
  · rcases exists_of_clearEntry done with ⟨-, here⟩ | ⟨other, p, q, product, sum, entries⟩
    · exact absurd here skipped
    · rw [clearIsExact, Bool.or_eq_true, Bool.or_eq_true, decide_eq_true_eq] at exact
      have exact := exact.resolve_left skipped
      simp only [addIsExact, List.all_eq_true, Bool.and_eq_true, product] at exact
      have changed : ∀ b, g'.entry i b = if j = b then .zero else q b := fun b => by
        rw [entries]
        simp only [true_and, if_true]
      refine ⟨.cleared other p (fun b => ⟨product b, (exact b (List.mem_finRange b)).1⟩)
        (fun b apart => ?_) ?_, fun a kept b => ?_⟩
      · rw [changed, if_neg apart.symm]
        exact ⟨sum b, (exact b (List.mem_finRange b)).2⟩
      · rw [changed, if_pos rfl]
      · have apart : a ≠ i := by
          rcases kept with apart | rfl
          · exact apart
          · exact other.symm
        rw [entries, if_neg fun here => apart here.1.symm, if_neg apart]

/-- How a row was treated depends on that row and the one of the pivot. -/
theorem ClearsRow.congr {g₂ : Grid rows cols} (h : ClearsRow g₁ g₂ pivot j i)
    (before : ∀ b, g₁.entry i b = g.entry i b) (own : ∀ b, g₁.entry pivot b = g.entry pivot b)
    (after : ∀ b, g₂.entry i b = g'.entry i b) : ClearsRow g g' pivot j i := by
  cases h with
  | kept same nothing =>
    refine .kept (fun b => (after b).symm.trans ((same b).trans (before b))) ?_
    rwa [before] at nothing
  | cleared other p products sums zero =>
    simp only [before, own, after] at products sums zero
    exact .cleared other p products sums zero

/-- What clearing the entries of some rows did to each of these rows. -/
theorem clearsRow_of_foldlM {targets : List (Fin rows)} (once : targets.Nodup)
    (operands : ∀ a ∈ targets, (g.entry a j).IsOperand)
    (decisive : ∀ a ∈ targets, a ≠ pivot → (g.entry a j).isDecisive = true)
    (exact : passes (clearIsExact pivot j) (clearEntry pivot j) targets g = true)
    (done : targets.foldlM (clearEntry pivot j) g = .ok g') :
    (∀ a ∈ targets, ClearsRow g g' pivot j a) ∧
      ∀ a, a ∉ targets ∨ a = pivot → ∀ b, g'.entry a b = g.entry a b := by
  induction targets generalizing g with
  | nil =>
    cases done
    exact ⟨fun a mem => absurd mem List.not_mem_nil, fun _ _ _ => rfl⟩
  | cons i targets ih =>
    rw [List.foldlM_cons] at done
    rw [passes, Bool.and_eq_true] at exact
    obtain ⟨g₁, first, done⟩ := bind_eq_ok.1 done
    obtain ⟨here, later⟩ := exact
    simp only [first] at later
    obtain ⟨outside, once⟩ := List.nodup_cons.1 once
    obtain ⟨treated, kept⟩ := clearsRow_of_clearEntry (operands i List.mem_cons_self)
      (decisive i List.mem_cons_self) here first
    have others : ∀ a ∈ targets, ∀ b, g₁.entry a b = g.entry a b := fun a mem =>
      kept a (.inl fun same => outside (same ▸ mem))
    obtain ⟨rest, keptRest⟩ := ih once
      (fun a mem => by
        rw [others a mem]
        exact operands a (List.mem_cons_of_mem i mem))
      (fun a mem apart => by
        rw [others a mem]
        exact decisive a (List.mem_cons_of_mem i mem) apart) later done
    refine ⟨fun a mem => ?_, fun a out b => ?_⟩
    · rcases List.mem_cons.1 mem with rfl | mem
      · exact treated.congr (fun _ => rfl) (fun _ => rfl)
          fun b => (keptRest a (.inl outside) b).symm
      · exact (rest a mem).congr (others a mem) (kept pivot (.inr rfl)) fun _ => rfl
    · rw [List.mem_cons, not_or] at out
      exact (keptRest a (out.imp_left And.right) b).trans (kept a (out.imp_left And.left) b)

/-- What a column with a pivot did to all rows. -/
theorem clearsRow_of_targets (readable : g.IsReadable)
    (decisive : ∀ a, a ≠ pivot → (g.entry a j).isDecisive = true)
    (exact : passes (clearIsExact pivot j) (clearEntry pivot j) (targets false pivot) g = true)
    (done : (targets false pivot).foldlM (clearEntry pivot j) g = .ok g') (a : Fin rows) :
    ClearsRow g g' pivot j a :=
  (clearsRow_of_foldlM ((List.nodup_finRange rows).filter _) (fun a _ => readable a j)
    (fun a _ => decisive a) exact done).1 a
      (mem_targets.2 fun below => absurd below Bool.false_ne_true)

/-! ## Operands -/

/-- A grid that can be read back stays so when it is pivoted. -/
theorem Pivots.isReadable {reciprocal : Value} (h : Pivots g g' i pivot j reciprocal)
    (readable : g.IsReadable) : g'.IsReadable := by
  intro a b
  by_cases own : a = i
  · by_cases column : b = j
    · rw [own, column, h.one]
      exact Value.isOperand_number _
    · have divisor := h.divided.isOperand rfl (Value.isOperand_number .one) (readable pivot j)
      rw [own]
      exact (h.scaled b column).isOperand rfl (readable pivot b) divisor
  · rw [h.others a own]
    exact readable _ b

/-- A grid that can be read back stays so when its rows are cleared. -/
theorem ClearsRow.isReadable (h : ∀ a, ClearsRow g g' pivot j a) (readable : g.IsReadable) :
    g'.IsReadable := by
  intro a b
  cases h a with
  | kept same _ =>
    rw [same]
    exact readable a b
  | cleared _ p products sums zero =>
    by_cases column : b = j
    · rw [column, zero]
      exact Value.isOperand_number _
    · have product := (products b).isOperand rfl (readable pivot b) (readable a j).negate
      exact (sums b column).isOperand rfl (readable a b) product

end Grid

end Reckon
