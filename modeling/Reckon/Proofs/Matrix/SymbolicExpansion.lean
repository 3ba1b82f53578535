import Reckon.Calculus.Derivative
import Reckon.Proofs.Evaluation.Operands
import Reckon.Proofs.Matrix.ExactDeterminants

/-!
# Expansions with text

The expansion of a matrix with text among its entries is written down as text: the expansion itself
with its signs and parentheses. Once names are bound, the text evaluates to what the expansion of
the numbers gives. The two pass over different entries, because text never counts as zero, but what
is zero adds nothing.
-/

namespace Reckon

/-! ## Equal numbers -/

namespace Value

/-- Both values are numbers, and the same number. -/
def Equal (v v' : Value) : Prop :=
  ∃ q, v.StandsFor q ∧ v'.StandsFor q

/-- A number is equal to itself. -/
theorem equal_refl {v : Value} (numeric : v.isNumeric = true) : v.Equal v :=
  ⟨v.rat, standsFor_rat numeric, standsFor_rat numeric⟩

/-- What equals a number is a number. -/
theorem Equal.isNumeric' {v v' : Value} (h : v.Equal v') : v'.isNumeric = true := by
  obtain ⟨q, _, d, rfl, _⟩ := h
  rfl

/-- Operators other than powers depend on the numbers only. -/
theorem Equal.exists_combine {op : Operator} {l l' r r' v' : Value} (noPower : op ≠ .power)
    (hl : l.Equal l') (hr : r.Equal r') (combined : l'.combine op r' = .ok v') :
    ∃ v, l.combine op r = .ok v ∧ v.Equal v' := by
  obtain ⟨_, ⟨a, rfl, rfl⟩, a', rfl, left⟩ := hl
  obtain ⟨_, ⟨b, rfl, rfl⟩, b', rfl, right⟩ := hr
  obtain ⟨d', applied, rfl⟩ := combine_numbers_eq_ok.1 combined
  obtain ⟨d, applied', same⟩ := Operator.agree_apply left.symm right.symm
    (fun power => absurd power noPower) d' applied
  exact ⟨number d, combine_numbers_eq_ok.2 ⟨d, applied', rfl⟩, d.toRat, ⟨d, rfl, rfl⟩, d', rfl,
    same.symm⟩

end Value

namespace Grid

variable {n : Nat}

/-! ## Passing over entries -/

/-- The terms of an expansion after one more column, which is passed over or adds its entry times
its cofactor. -/
def addColumn (passed : Bool) (factor : Value) (cofactor : Except Fault Value)
    (total : Option Value) (column : Nat) : Except Fault (Option Value) :=
  if passed then .ok total
  else do
    let term ← factor.mul (← cofactor)
    some <$> addTerm total column term

open scoped FirstRow

/-- The expansion by minors along the first row that passes over the entries which count as zero in
another grid. -/
def expandAlong : {n : Nat} → (pattern g : Grid n n) → Except Fault Value
  | 0, _, _ => .ok .one
  | 1, _, g => .ok (g.entry 0 0)
  | 2, _, g => do
    let ad ← (g.entry 0 0).mul (g.entry 1 1)
    let bc ← (g.entry 0 1).mul (g.entry 1 0)
    ad.sub bc
  | n + 3, pattern, g => do
    let total ← (List.finRange (n + 3)).foldlM (fun total j =>
      addColumn (pattern.entry 0 j).isZero (g.entry 0 j)
        (expandAlong (pattern.minor 0 j) (g.minor 0 j)) total j) none
    .ok (total.getD .zero)

/-- Along its own zeros, it is the expansion. -/
theorem expandAlong_self (g : Grid n n) : g.expandAlong g = g.expand := by
  induction n using Nat.strongRecOn with
  | _ n ih =>
    match n, g with
    | 0, g => rfl
    | 1, g => rfl
    | 2, g => rfl
    | n + 3, g =>
      rw [expandAlong, expand]
      simp only [ih (n + 2) (Nat.lt_succ_self _), addColumn]
      rfl

/-- A column that is not passed over adds its entry times its cofactor, if all three operations
succeed. -/
theorem addColumn_eq_ok {factor : Value} {cofactor : Except Fault Value} {total t : Option Value}
    {column : Nat} : addColumn false factor cofactor total column = .ok t ↔
      ∃ c term v, cofactor = .ok c ∧ factor.mul c = .ok term ∧
        addTerm total column term = .ok v ∧ t = some v := by
  rw [addColumn, if_neg Bool.false_ne_true, bind_eq_ok]
  refine exists_congr fun c => ?_
  rw [bind_eq_ok]
  constructor
  · rintro ⟨isCofactor, term, product, added⟩
    cases sum : addTerm total column term with
    | error fault =>
      rw [sum] at added
      cases added
    | ok v =>
      rw [sum] at added
      cases added
      exact ⟨term, v, isCofactor, product, sum, rfl⟩
  · rintro ⟨term, v, isCofactor, product, sum, rfl⟩
    exact ⟨isCofactor, term, product, by rw [sum]; rfl⟩

/-- An entry of a minor is the entry of the grid beside the row and the column that were left out.
-/
theorem entry_minor (g : Grid (n + 1) (n + 1)) (j : Fin (n + 1)) (a b : Fin n) :
    (g.minor 0 j).entry a b = g.entry (skip 0 a) (skip j b) := by
  rw [minor, removeColumn, removeRow, entry_ofFn, entry_ofFn]

/-- What holds for the entries of two grids holds for those of their minors. -/
theorem forall_entry_minor {R : Value → Value → Prop} {g b : Grid (n + 1) (n + 1)}
    (entries : ∀ i k, R (g.entry i k) (b.entry i k)) (j : Fin (n + 1)) (a c : Fin n) :
    R ((g.minor 0 j).entry a c) ((b.minor 0 j).entry a c) := by
  rw [entry_minor, entry_minor]
  exact entries _ _

/-! ## Expansions side by side -/

/-- Folds of related steps are related, if the second one comes to an end. -/
theorem exists_foldlM {α β γ : Type} {R : β → γ → Prop} {f : β → α → Except Fault β}
    {f' : γ → α → Except Fault γ} {as : List α}
    {b : β} {c c' : γ} (start : R b c) (run : as.foldlM f' c = .ok c')
    (step : ∀ a b c c', R b c → f' c a = .ok c' → ∃ b', f b a = .ok b' ∧ R b' c') :
    ∃ b', as.foldlM f b = .ok b' ∧ R b' c' := by
  induction as generalizing b c with
  | nil =>
    cases run
    exact ⟨b, rfl, start⟩
  | cons a as ih =>
    rw [List.foldlM_cons] at run
    obtain ⟨d, first, others⟩ := bind_eq_ok.1 run
    obtain ⟨e, first', related⟩ := step a b c d start first
    obtain ⟨b', others', last⟩ := ih related others
    exact ⟨b', by rw [List.foldlM_cons]; exact bind_eq_ok.2 ⟨e, first', others'⟩, last⟩

/-- A relation of values that an expansion carries along: whatever it does with the second values,
it can do with the first ones, and the results are related. -/
structure Carries (R : Value → Value → Prop) : Prop where
  one : R .one .one
  zero : R .zero .zero
  negate : ∀ {v v'}, R v v' → R v.negate v'.negate
  add : ∀ {l l' r r' v'}, R l l' → R r r' → l'.add r' = .ok v' → ∃ v, l.add r = .ok v ∧ R v v'
  sub : ∀ {l l' r r' v'}, R l l' → R r r' → l'.sub r' = .ok v' → ∃ v, l.sub r = .ok v ∧ R v v'
  mul : ∀ {l l' r r' v'}, R l l' → R r r' → l'.mul r' = .ok v' → ∃ v, l.mul r = .ok v ∧ R v v'

namespace Carries

variable {R : Value → Value → Prop}

/-- A term may be added to the first sum if it may to the second, and the sums stay related. -/
theorem exists_addTerm (h : Carries R) {total total' : Option Value} {column : Nat}
    {term term' v' : Value} (sums : Option.Rel R total total') (terms : R term term')
    (added : addTerm total' column term' = .ok v') :
    ∃ v, addTerm total column term = .ok v ∧ R v v' := by
  cases sums with
  | none =>
    rw [addTerm] at added ⊢
    cases added
    refine ⟨_, rfl, ?_⟩
    split
    · exact h.negate terms
    · exact terms
  | some sums =>
    rw [addTerm] at added ⊢
    split at added
    · next odd =>
      rw [if_pos odd]
      exact h.sub sums terms added
    · next even =>
      rw [if_neg even]
      exact h.add sums terms added

/-- A column may be added to the first expansion if it may to the second, and the sums stay related.
-/
theorem exists_addColumn (h : Carries R) {passed : Bool} {factor factor' : Value}
    {cofactor cofactor' : Except Fault Value} {total total' next' : Option Value} {column : Nat}
    (factors : R factor factor')
    (cofactors : ∀ c', cofactor' = .ok c' → ∃ c, cofactor = .ok c ∧ R c c')
    (sums : Option.Rel R total total')
    (step : addColumn passed factor' cofactor' total' column = .ok next') :
    ∃ next, addColumn passed factor cofactor total column = .ok next ∧ Option.Rel R next next' := by
  cases passed with
  | true =>
    cases step
    exact ⟨total, rfl, sums⟩
  | false =>
    obtain ⟨c', term', v', minor', product', added', rfl⟩ := addColumn_eq_ok.1 step
    obtain ⟨c, minor, related⟩ := cofactors c' minor'
    obtain ⟨term, product, terms⟩ := h.mul factors related product'
    obtain ⟨v, added, last⟩ := h.exists_addTerm sums terms added'
    exact ⟨some v, addColumn_eq_ok.2 ⟨c, term, v, minor, product, added, rfl⟩, .some last⟩

/-- If the entries of two grids are related, so are their expansions along the same zeros. -/
theorem exists_expandAlong (h : Carries R) {pattern g b : Grid n n}
    (entries : ∀ i j, R (g.entry i j) (b.entry i j)) {v' : Value}
    (run : pattern.expandAlong b = .ok v') : ∃ v, pattern.expandAlong g = .ok v ∧ R v v' := by
  induction n using Nat.strongRecOn generalizing v' with
  | _ n ih =>
    match n, pattern, g, b with
    | 0, _, g, b =>
      cases run
      exact ⟨.one, rfl, h.one⟩
    | 1, _, g, b =>
      cases run
      exact ⟨_, rfl, entries 0 0⟩
    | 2, _, g, b =>
      obtain ⟨ad', left, run⟩ := bind_eq_ok.1 run
      obtain ⟨bc', right, run⟩ := bind_eq_ok.1 run
      obtain ⟨ad, left', first⟩ := h.mul (entries 0 0) (entries 1 1) left
      obtain ⟨bc, right', second⟩ := h.mul (entries 0 1) (entries 1 0) right
      obtain ⟨v, difference, last⟩ := h.sub first second run
      exact ⟨v, bind_eq_ok.2 ⟨ad, left', bind_eq_ok.2 ⟨bc, right', difference⟩⟩, last⟩
    | n + 3, pattern, g, b =>
      rw [expandAlong] at run ⊢
      obtain ⟨total', folded, run⟩ := bind_eq_ok.1 run
      cases run
      obtain ⟨total, folded', sums⟩ := exists_foldlM (R := Option.Rel R) (f := fun total j =>
        addColumn (pattern.entry 0 j).isZero (g.entry 0 j)
          ((pattern.minor 0 j).expandAlong (g.minor 0 j)) total j)
        .none folded fun j _ _ _ sums step => h.exists_addColumn (entries 0 j)
          (fun _ minor => ih (n + 2) (Nat.lt_succ_self _) (forall_entry_minor entries j) minor)
          sums step
      refine ⟨total.getD .zero, bind_eq_ok.2 ⟨total, folded', rfl⟩, ?_⟩
      cases sums with
      | none => exact h.zero
      | some sums => exact sums

end Carries

/-! ## What is zero adds nothing -/

/-- An expansion carries equality of numbers along. -/
theorem carries_equal : Carries Value.Equal where
  one := ⟨1, ⟨.one, rfl, Decimal.toRat_one⟩, .one, rfl, Decimal.toRat_one⟩
  zero := ⟨0, ⟨.zero, rfl, Decimal.toRat_zero⟩, .zero, rfl, Decimal.toRat_zero⟩
  negate h := by
    obtain ⟨q, first, second⟩ := h
    exact ⟨-q, first.negate, second.negate⟩
  add hl hr run := hl.exists_combine nofun hr run
  sub hl hr run := hl.exists_combine nofun hr run
  mul hl hr run := hl.exists_combine nofun hr run

/-- The terms of an expansion so far stand for a rational. -/
def SumsTo (total : Option Value) (q : ℚ) : Prop :=
  match total with
  | none => q = 0
  | some v => v.StandsFor q

/-- The sum of the terms so far stands for the rational, also when there are none. -/
theorem SumsTo.getD {total : Option Value} {q : ℚ} (h : SumsTo total q) :
    (total.getD .zero).StandsFor q := by
  cases total with
  | none => exact ⟨.zero, rfl, Decimal.toRat_zero.trans h.symm⟩
  | some v => exact h

section Terms

variable {total total' : Option Value} {column : Nat} {term term' v v' : Value} {p q : ℚ}

/-- With zero on one side, adding a term does not round. -/
theorem SumsTo.addTerm_of_zero (h : SumsTo total p) (hq : term.StandsFor q) (zero : p = 0 ∨ q = 0)
    (added : addTerm total column term = .ok v) :
    v.StandsFor (if column % 2 = 1 then p - q else p + q) := by
  cases total with
  | none =>
    have start : p = 0 := h
    rw [addTerm] at added
    cases added
    rw [start]
    split
    · rw [zero_sub]
      exact hq.negate
    · rw [zero_add]
      exact hq
  | some sum =>
    have sums : sum.StandsFor p := h
    rw [addTerm] at added
    split at added
    · next odd =>
      rw [if_pos odd]
      exact sums.sub_of_zero hq zero added
    · next even =>
      rw [if_neg even]
      exact sums.add_of_zero hq zero added

/-- The terms so far are the same number, and the second ones have been started first. -/
def SameSum (total total' : Option Value) : Prop :=
  (total' = none → total = none) ∧ ∃ q, SumsTo total q ∧ SumsTo total' q

/-- A term may be added to the first of two equal sums if it may to the second, and the sums stay
equal. -/
theorem SameSum.exists_addTerm (h : SameSum total total') (terms : term.Equal term')
    (added : addTerm total' column term' = .ok v') :
    ∃ v, addTerm total column term = .ok v ∧ v.Equal v' := by
  obtain ⟨started, p, sum, sum'⟩ := h
  cases total with
  | none =>
    obtain ⟨q, hq, hq'⟩ := terms
    have zero : p = 0 ∨ q = 0 := .inl sum
    exact ⟨_, rfl, _, SumsTo.addTerm_of_zero sum hq zero rfl, sum'.addTerm_of_zero hq' zero added⟩
  | some sofar =>
    cases total' with
    | none => cases started rfl
    | some sofar' => exact carries_equal.exists_addTerm (.some ⟨p, sum, sum'⟩) terms added

/-- A column that only the first expansion passes over adds nothing to the second one. -/
theorem SameSum.exists_addColumn {passed : Bool} {factor : Value}
    {cofactor cofactor' : Except Fault Value} {next' : Option Value}
    (numeric : factor.isNumeric = true) (decisive : factor.isDecisive = true)
    (zeros : passed = true → factor.isZero = true)
    (cofactors : ∀ c', cofactor' = .ok c' → ∃ c, cofactor = .ok c ∧ c.Equal c')
    (same : SameSum total total')
    (step : addColumn passed factor cofactor' total' column = .ok next') :
    ∃ next, addColumn factor.isZero factor cofactor total column = .ok next ∧
      SameSum next next' := by
  cases passed with
  | true =>
    cases step
    rw [zeros rfl]
    exact ⟨total, rfl, same⟩
  | false =>
    obtain ⟨c', term', v', minor', product', added', rfl⟩ := addColumn_eq_ok.1 step
    obtain ⟨c, minor, equal⟩ := cofactors c' minor'
    cases zero : factor.isZero with
    | true =>
      have nothing : factor.rat = 0 :=
        ((Value.standsFor_rat numeric).isZero_iff decisive).1 zero
      have term := Value.standsFor_rat
        (Value.isNumeric_of_combine numeric equal.isNumeric' product')
      rw [Value.rat_mul_eq_zero numeric nothing product'] at term
      obtain ⟨_, q, sum, sum'⟩ := same
      have last := sum'.addTerm_of_zero term (.inr rfl) added'
      rw [sub_zero, add_zero, ite_self] at last
      exact ⟨total, rfl, nofun, q, sum, last⟩
    | false =>
      obtain ⟨term, product, terms⟩ :=
        carries_equal.mul (Value.equal_refl numeric) equal product'
      obtain ⟨v, added, q, last, last'⟩ := same.exists_addTerm terms added'
      exact ⟨some v, addColumn_eq_ok.2 ⟨c, term, v, minor, product, added, rfl⟩, nofun, q, last,
        last'⟩

end Terms

/-- Passing over more zeros does not change the expansion. -/
theorem exists_expand_of_expandAlong {pattern b : Grid n n}
    (numeric : ∀ i j, (b.entry i j).isNumeric = true)
    (decisive : ∀ i j, (b.entry i j).isDecisive = true)
    (zeros : ∀ i j, (pattern.entry i j).isZero = true → (b.entry i j).isZero = true) {v' : Value}
    (run : pattern.expandAlong b = .ok v') : ∃ v, b.expand = .ok v ∧ v.Equal v' := by
  rw [← expandAlong_self]
  induction n using Nat.strongRecOn generalizing v' with
  | _ n ih =>
    match n, pattern, b with
    | 0, _, b =>
      cases run
      exact ⟨.one, rfl, carries_equal.one⟩
    | 1, _, b =>
      cases run
      exact ⟨_, rfl, Value.equal_refl (numeric 0 0)⟩
    | 2, _, b =>
      refine ⟨v', run, Value.equal_refl ?_⟩
      obtain ⟨ad, left, run⟩ := bind_eq_ok.1 run
      obtain ⟨bc, right, run⟩ := bind_eq_ok.1 run
      exact Value.isNumeric_of_combine
        (Value.isNumeric_of_combine (numeric 0 0) (numeric 1 1) left)
        (Value.isNumeric_of_combine (numeric 0 1) (numeric 1 0) right) run
    | n + 3, pattern, b =>
      rw [expandAlong] at run ⊢
      obtain ⟨total', folded, run⟩ := bind_eq_ok.1 run
      cases run
      have start : SameSum none none := ⟨fun _ => rfl, 0, rfl, rfl⟩
      have cofactors : ∀ j c', (pattern.minor 0 j).expandAlong (b.minor 0 j) = .ok c' →
          ∃ c, (b.minor 0 j).expandAlong (b.minor 0 j) = .ok c ∧ c.Equal c' := fun j c' minor =>
        ih (n + 2) (Nat.lt_succ_self _)
          (forall_entry_minor (R := fun v _ => v.isNumeric = true) (b := b) numeric j)
          (forall_entry_minor (R := fun v _ => v.isDecisive = true) (b := b) decisive j)
          (forall_entry_minor (R := fun v w => v.isZero = true → w.isZero = true) zeros j) minor
      obtain ⟨total, folded', _, q, sum, sum'⟩ := exists_foldlM (f := fun total j =>
        addColumn (b.entry 0 j).isZero (b.entry 0 j)
          ((b.minor 0 j).expandAlong (b.minor 0 j)) total j)
        start folded fun j _ _ _ same step =>
          same.exists_addColumn (numeric 0 j) (decisive 0 j) (zeros 0 j) (cofactors j) step
      exact ⟨total.getD .zero, bind_eq_ok.2 ⟨total, folded', rfl⟩, q, sum.getD, sum'.getD⟩

/-! ## Text stays text -/

/-- Text is returned as it is. -/
theorem determinantCofactor_eq_symbolic {g : Grid n n} {text : String} :
    g.determinantCofactor = .ok (.symbolic text) ↔ g.expand = .ok (.symbolic text) := by
  rw [determinantCofactor]
  cases g.expand with
  | error fault => constructor <;> intro returned <;> cases returned
  | ok v =>
    rw [Except.map, Except.ok.injEq, Except.ok.injEq]
    exact Value.rounded_eq_symbolic

/-- An operation on text gives text. -/
theorem isNumeric_combine_eq_false {op : Operator} {l r v : Value}
    (text : l.isNumeric = false ∨ r.isNumeric = false) (combined : l.combine op r = .ok v) :
    v.isNumeric = false := by
  cases v with
  | symbolic text => rfl
  | number d =>
    obtain ⟨a, b, rfl, rfl, _⟩ := Value.combine_eq_number.1 combined
    rcases text with text | text <;> cases text

/-- A sum with text in it is text. -/
theorem isNumeric_addTerm_eq_false {total : Option Value} {column : Nat} {term v : Value}
    (text : (∃ sum, total = some sum ∧ sum.isNumeric = false) ∨
      total = none ∧ term.isNumeric = false)
    (added : addTerm total column term = .ok v) : v.isNumeric = false := by
  rcases text with ⟨sum, rfl, text⟩ | ⟨rfl, text⟩
  · rw [addTerm] at added
    split at added <;> exact isNumeric_combine_eq_false (.inl text) added
  · cases term with
    | number d => cases text
    | symbolic text =>
      rw [addTerm] at added
      cases added
      split
      · rw [Value.negate]
        split <;> rfl
      · rfl

/-- Terms that are text stay text in further columns. -/
theorem exists_of_foldlM_addColumn {α : Type} {passed : α → Bool} {factor : α → Value}
    {cofactor : α → Except Fault Value} {column : α → Nat} {places : List α} {sum : Value}
    {total : Option Value} (text : sum.isNumeric = false)
    (run : places.foldlM (fun total j =>
      addColumn (passed j) (factor j) (cofactor j) total (column j)) (some sum) = .ok total) :
    ∃ v, total = some v ∧ v.isNumeric = false := by
  induction places generalizing sum with
  | nil =>
    cases run
    exact ⟨sum, rfl, text⟩
  | cons j places ih =>
    rw [List.foldlM_cons] at run
    obtain ⟨next, step, others⟩ := bind_eq_ok.1 run
    cases skipped : passed j with
    | true =>
      rw [skipped] at step
      cases step
      exact ih text others
    | false =>
      rw [skipped] at step
      obtain ⟨_, _, sum', _, _, added, rfl⟩ := addColumn_eq_ok.1 step
      exact ih (isNumeric_addTerm_eq_false (.inl ⟨sum, rfl, text⟩) added) others

/-- If the first entry is text, the expansion is text: its first term is not passed over, and a sum
with text is text. -/
theorem isNumeric_expand_eq_false {g : Grid (n + 1) (n + 1)}
    (first : (g.entry 0 0).isNumeric = false) (something : (g.entry 0 0).isZero = false) {v : Value}
    (run : g.expand = .ok v) : v.isNumeric = false := by
  match n, g with
  | 0, g =>
    cases run
    exact first
  | 1, g =>
    obtain ⟨ad, left, run⟩ := bind_eq_ok.1 run
    obtain ⟨bc, right, run⟩ := bind_eq_ok.1 run
    exact isNumeric_combine_eq_false (.inl (isNumeric_combine_eq_false (.inl first) left)) run
  | n + 2, g =>
    rw [← expandAlong_self, expandAlong] at run
    obtain ⟨total, folded, run⟩ := bind_eq_ok.1 run
    cases run
    rw [List.finRange_succ, List.foldlM_cons] at folded
    obtain ⟨start, step, others⟩ := bind_eq_ok.1 folded
    rw [something] at step
    obtain ⟨_, term, sum, _, product, added, rfl⟩ := addColumn_eq_ok.1 step
    have text : sum.isNumeric = false :=
      isNumeric_addTerm_eq_false (.inr ⟨rfl, isNumeric_combine_eq_false (.inl first) product⟩) added
    obtain ⟨v, rfl, last⟩ := exists_of_foldlM_addColumn text others
    exact last

/-! ## Shifted diagonals -/

/-- The text of a value with a symbol taken from it. -/
def shiftedText (symbol : String) (v : Value) : Value :=
  .symbolic ("(" ++ v.render ++ " " ++ Operator.subtract.symbol ++ " " ++ symbol ++ ")")

/-- Taking a symbol from a value writes both down. -/
theorem sub_symbol (v : Value) (symbol : String) :
    v.sub (.symbolic symbol) = .ok (shiftedText symbol v) :=
  Value.combine_symbolic_right .subtract v symbol

/-- Going through places of the diagonal takes the symbol from each of them and leaves the other
entries as they are. -/
theorem exists_shiftPlaces (symbol : String) {places : List (Fin n)} (nodup : places.Nodup)
    (g : Grid n n) :
    ∃ shifted, places.foldlM (fun (g : Grid n n) i => do
        let shifted ← (g.entry i i).sub (.symbolic symbol)
        .ok (g.set i i shifted)) g = .ok shifted ∧
      ∀ i j, shifted.entry i j =
        if i = j ∧ i ∈ places then shiftedText symbol (g.entry i i) else g.entry i j := by
  induction places generalizing g with
  | nil => exact ⟨g, rfl, fun i j => (if_neg fun inside => List.not_mem_nil inside.2).symm⟩
  | cons k places ih =>
    obtain ⟨apart, nodup⟩ := List.nodup_cons.1 nodup
    obtain ⟨shifted, others, entries⟩ := ih nodup (g.set k k (shiftedText symbol (g.entry k k)))
    refine ⟨shifted, ?_, fun i j => ?_⟩
    · rw [List.foldlM_cons, sub_symbol]
      exact others
    · rw [entries, entry_set, entry_set]
      by_cases first : k = i
      · subst first
        by_cases own : k = j
        · subst own
          simp [apart]
        · simp [own]
      · simp [first, Ne.symm first]

/-- Every entry of the diagonal is shifted once, and the others stay. -/
theorem exists_shiftDiagonal (g : Grid n n) (symbol : String) :
    ∃ shifted, g.shiftDiagonal symbol = .ok shifted ∧
      ∀ i j, shifted.entry i j =
        if i = j then shiftedText symbol (g.entry i i) else g.entry i j := by
  obtain ⟨shifted, done, entries⟩ := exists_shiftPlaces symbol (List.nodup_finRange n) g
  refine ⟨shifted, done, fun i j => ?_⟩
  rw [entries]
  simp only [List.mem_finRange, and_true]

/-! ## Expansions of operands -/

/-- An expansion keeps operands: every operation on operands gives an operand. -/
theorem carries_operand : Carries fun v v' => v = v' ∧ v.IsOperand where
  one := ⟨rfl, Value.isOperand_number .one⟩
  zero := ⟨rfl, Value.isOperand_number .zero⟩
  negate h := ⟨congrArg Value.negate h.1, h.2.negate⟩
  add := by
    rintro l _ r _ v ⟨rfl, hl⟩ ⟨rfl, hr⟩ run
    exact ⟨v, run, rfl, hl.combine .add nofun hr run⟩
  sub := by
    rintro l _ r _ v ⟨rfl, hl⟩ ⟨rfl, hr⟩ run
    exact ⟨v, run, rfl, hl.combine .subtract nofun hr run⟩
  mul := by
    rintro l _ r _ v ⟨rfl, hl⟩ ⟨rfl, hr⟩ run
    exact ⟨v, run, rfl, hl.combine .multiply nofun hr run⟩

/-- The expansion of operands is an operand. -/
theorem isOperand_expand {g : Grid n n} (operands : ∀ i j, (g.entry i j).IsOperand) {v : Value}
    (run : g.expand = .ok v) : v.IsOperand := by
  rw [← expandAlong_self] at run
  obtain ⟨_, _, rfl, operand⟩ :=
    carries_operand.exists_expandAlong (fun i j => ⟨rfl, operands i j⟩) run
  exact operand

/-- An expansion carries along what a value becomes when names are bound. -/
theorem carries_becomes (mode : AngleMode) (s : Scope) : Carries (Value.Becomes mode s) where
  one := Value.becomes_number .one
  zero := Value.becomes_number .zero
  negate h := h.negate
  add hl hr run := hl.exists_combine nofun nofun hr run
  sub hl hr run := hl.exists_combine nofun nofun hr run
  mul hl hr run := hl.exists_combine nofun nofun hr run

/-- If every entry becomes a number, the expansion evaluates to the expansion of the numbers. -/
theorem exists_expand_of_becomes {settings : Settings} {s : Scope} {g b : Grid n n}
    (becomes : ∀ i j, (g.entry i j).Becomes settings.angle s (b.entry i j))
    (decisive : ∀ i j, (b.entry i j).isDecisive = true)
    (room : ∃ v, g.expandAlong b = .ok v) :
    ∃ (w : Value) (d : Decimal), g.expand = .ok w ∧ b.expand = .ok (.number d) ∧
      EvaluatesTo settings s w.render d.toRat := by
  obtain ⟨v', run⟩ := room
  obtain ⟨w, expanded, becomes'⟩ := (carries_becomes _ s).exists_expandAlong becomes run
  rw [expandAlong_self] at expanded
  obtain ⟨_, skipped, q, ⟨d, rfl, first⟩, d', rfl, second⟩ := exists_expand_of_expandAlong
    (fun i j => (becomes i j).isNumeric) decisive (fun i j => (becomes i j).isZero) run
  refine ⟨w, d, expanded, skipped, ?_⟩
  rw [first, ← second]
  exact becomes'.evaluatesTo

/-- The second grid has the entries of the first one with the names bound, numbers that are zero or
well away from it. There is room for all that is computed from them, also where one of them is zero:
the text of a determinant does not pass over a name that has become zero. -/
structure Specialises (settings : Settings) (s : Scope) (g b : Grid n n) : Prop where
  bound : ∀ i j, (g.entry i j).bound settings s = .ok (b.entry i j)
  numeric : b.isNumeric = true
  decisive : ∀ i j, (b.entry i j).isDecisive = true
  room : ∃ v, g.expandAlong b = .ok v

/-- Entries that are operands become the entries with the names bound. -/
theorem Specialises.becomes {settings : Settings} {s : Scope} {g b : Grid n n}
    (h : g.Specialises settings s b) (operands : ∀ i j, (g.entry i j).IsOperand) (i j : Fin n) :
    (g.entry i j).Becomes settings.angle s (b.entry i j) := by
  have value := h.bound i j
  obtain ⟨d, number, _⟩ := Value.standsFor_rat (isNumeric_iff.1 h.numeric i j)
  rw [number] at value ⊢
  exact (operands i j).becomes value

/-- The second grid is the first one with a number taken from its diagonal, without rounding. Its
entries are zero or well away from it, and there is room for all that the text of the characteristic
polynomial computes from them. -/
structure Shifts (symbol : String) (t : Decimal) (g b : Grid n n) : Prop where
  diagonal : ∀ i, (g.entry i i).sub (.number t) = .ok (b.entry i i)
  others : ∀ i j, i ≠ j → b.entry i j = g.entry i j
  exact : b.rational = g.rational - t.toRat • (1 : Matrix (Fin n) (Fin n) ℚ)
  decisive : ∀ i j, (b.entry i j).isDecisive = true
  room : ∃ v, (do (← g.shiftDiagonal symbol).expandAlong b) = .ok v

/-- With the symbol bound to the number, the one shifted diagonal becomes the other one. -/
theorem Shifts.becomes {mode : AngleMode} {s : Scope} {symbol : String} {t : Decimal}
    {g b shifted : Grid n n} (h : g.Shifts symbol t b) (numeric : g.isNumeric = true)
    (valid : Token.isIdentifier symbol = true) (bound : s.binding? symbol = some (.number t))
    (entries : ∀ i j, shifted.entry i j =
      if i = j then shiftedText symbol (g.entry i i) else g.entry i j) (i j : Fin n) :
    (shifted.entry i j).Becomes mode s (b.entry i j) := by
  have stays : (g.entry i j).Becomes mode s (g.entry i j) := by
    obtain ⟨d, number, _⟩ := Value.standsFor_rat (isNumeric_iff.1 numeric i j)
    rw [number]
    exact Value.becomes_number d
  rw [entries]
  split
  · next own =>
    subst own
    obtain ⟨w, difference, becomes⟩ :=
      (carries_becomes mode s).sub stays (Value.becomes_name valid bound) (h.diagonal i)
    rw [sub_symbol] at difference
    cases difference
    exact becomes
  · next apart =>
    rw [h.others i j apart]
    exact stays

end Grid

namespace ValueMatrix

variable {n : Nat}

/-- Symbolic determinants specialise to numeric ones. If the expansion of a matrix whose entries are
values of evaluation is text, the text is accepted under every depth limit that is large enough; and
whenever the entries evaluate to numbers with the names bound, the text evaluates to the number that
the expansion of these numbers gives. In particular, the characteristic polynomial of a matrix of
numbers evaluates at a number to the determinant of the matrix with that number taken from its
diagonal, if nothing is rounded. -/
theorem symbolic_determinants_specialise (g : Grid n n) (positive : 0 < n) :
    (∀ text, (∀ i j, (g.entry i j).IsEvaluated) →
      (ofGrid g positive).determinantCofactor = .ok (.symbolic text) →
      (∃ tree enough, ∀ limit, enough ≤ limit → Expr.parse limit text = .ok tree) ∧
      ∀ (settings : Settings) (s : Scope) (b : Grid n n), g.Specialises settings s b →
        ∃ w : Decimal, b.expand = .ok (.number w) ∧ EvaluatesTo settings s text w.toRat) ∧
    ∀ (symbol : String) (t : Decimal) (settings : Settings) (s : Scope) (b : Grid n n),
      g.isNumeric = true → Token.isIdentifier symbol = true →
      s.binding? symbol = some (.number t) → g.Shifts symbol t b →
      b.expandsWithin .exact = true →
      ∃ text, (ofGrid g positive).characteristicPolynomial symbol = .ok (.symbolic text) ∧
        EvaluatesTo settings s text
          (g.rational - t.toRat • (1 : Matrix (Fin n) (Fin n) ℚ)).det := by
  constructor
  · intro text evaluated returned
    have operands : ∀ i j, (g.entry i j).IsOperand := fun i j => (evaluated i j).isOperand
    rw [determinantCofactor, ifSquare_ofGrid] at returned
    have expanded := Grid.determinantCofactor_eq_symbolic.1 returned
    refine ⟨(Grid.isOperand_expand operands expanded).exists_parse, fun settings s b h => ?_⟩
    obtain ⟨w, d, expanded', number, evaluates⟩ :=
      Grid.exists_expand_of_becomes (h.becomes operands) h.decisive h.room
    cases expanded.symm.trans expanded'
    exact ⟨d, number, evaluates⟩
  · intro symbol t settings s b numeric valid bound h exact
    obtain ⟨shifted, done, entries⟩ := Grid.exists_shiftDiagonal g symbol
    have room := h.room
    rw [done] at room
    have becomes (i j : Fin n) : (shifted.entry i j).Becomes settings.angle s (b.entry i j) :=
      h.becomes numeric valid bound entries i j
    obtain ⟨w, d, expanded, number, evaluates⟩ :=
      Grid.exists_expand_of_becomes becomes h.decisive room
    obtain ⟨n, rfl⟩ : ∃ k, n = k + 1 := ⟨n - 1, by omega⟩
    have composed : w.isNumeric = false := by
      have first := entries 0 0
      rw [if_pos rfl] at first
      refine Grid.isNumeric_expand_eq_false ?_ ?_ expanded
      · rw [first]
        rfl
      · have operand := (becomes 0 0).isOperand
        rw [first] at operand ⊢
        exact operand.isZero_eq_false
    cases w with
    | number c => cases composed
    | symbolic text =>
      refine ⟨text, ?_, ?_⟩
      · have square : (ofGrid g positive).characteristicPolynomial symbol =
            g.characteristicPolynomial symbol := dif_pos rfl
        rw [square, Grid.characteristicPolynomial, done]
        exact Grid.determinantCofactor_eq_symbolic.2 expanded
      · have numbers : b.isNumeric = true :=
          Grid.isNumeric_iff.2 fun i j => (becomes i j).isNumeric
        obtain ⟨v, sum, _, near⟩ := Grid.exists_expand (Grid.isWithin_exact numbers) exact
        rw [Grid.expansionError_exact] at near
        cases number.symm.trans sum
        rw [← h.exact, ← sub_eq_zero.1 (abs_nonpos_iff.1 near)]
        exact evaluates

/-- A determinant in two names, one of which becomes zero, and the characteristic polynomial of a
matrix at one of its roots. -/
theorem symbolic_determinants_specialise_root :
    let g : Grid 3 3 := ⟨#v[#v[.symbolic "a", .one, .zero], #v[.one, .symbolic "b", .one],
      #v[.zero, .one, .ofDigits 2]]⟩
    let b : Grid 3 3 := ⟨#v[#v[.zero, .one, .zero], #v[.one, .ofDigits 3, .one],
      #v[.zero, .one, .ofDigits 2]]⟩
    let s : Scope := Scope.root.bindAll [("a", .zero), ("b", .ofDigits 3)]
    let m : Grid 2 2 := ⟨#v[#v[.ofDigits 2, .one], #v[.one, .ofDigits 2]]⟩
    let c : Grid 2 2 := ⟨#v[#v[.negOne, .one], #v[.one, .negOne]]⟩
    let s' : Scope := Scope.root.bindAll [("λ", .ofDigits 3)]
    (∀ i j, (g.entry i j).IsEvaluated) ∧ g.Specialises {} s b ∧
      (ofGrid g (by decide)).determinantCofactor =
        .ok (.symbolic "((a * ((b * 2) - 1)) - 2)") ∧
      (∃ w : Decimal, b.expand = .ok (.number w) ∧
        EvaluatesTo {} s "((a * ((b * 2) - 1)) - 2)" w.toRat) ∧
      m.isNumeric = true ∧ Token.isIdentifier "λ" = true ∧
      s'.binding? "λ" = some (.number .three) ∧ m.Shifts "λ" .three c ∧
      c.expandsWithin .exact = true ∧
      ∃ text, (ofGrid m (by decide)).characteristicPolynomial "λ" = .ok (.symbolic text) ∧
        EvaluatesTo {} s' text
          (m.rational - Decimal.three.toRat • (1 : Matrix (Fin 2) (Fin 2) ℚ)).det := by
  intro g b s m c s'
  have evaluated : ∀ i j, (g.entry i j).IsEvaluated := by
    intro i j
    match i, j with
    | 0, 0 => exact Value.isEvaluated_name (by decide)
    | 1, 1 => exact Value.isEvaluated_name (by decide)
    | 0, 1 | 0, 2 | 1, 0 | 1, 2 | 2, 0 | 2, 1 | 2, 2 => exact .number _
  have specialises : g.Specialises {} s b :=
    { bound := by
        intro i j
        match i, j with
        | 0, 0 => exact Value.bound_name (by decide) (by decide) rfl
        | 1, 1 => exact Value.bound_name (by decide) (by decide) rfl
        | 0, 1 | 0, 2 | 1, 0 | 1, 2 | 2, 0 | 2, 1 | 2, 2 => rfl
      numeric := by decide +kernel
      decisive := by decide +kernel
      room := ⟨.number ⟨true, 2, 0, by decide, by decide⟩, by decide +kernel⟩ }
  have returned : (ofGrid g (by decide)).determinantCofactor =
      .ok (.symbolic "((a * ((b * 2) - 1)) - 2)") := by
    decide +kernel
  have numeric : m.isNumeric = true := by decide +kernel
  have valid : Token.isIdentifier "λ" = true := by decide +kernel
  have bound : s'.binding? "λ" = some (.number .three) := by decide +kernel
  have shifts : m.Shifts "λ" .three c :=
    { diagonal := by decide +kernel
      others := by decide +kernel
      exact := by decide +kernel
      decisive := by decide +kernel
      room := ⟨.zero, by decide +kernel⟩ }
  have exact : c.expandsWithin .exact = true := by decide +kernel
  exact ⟨evaluated, specialises, returned,
    ((symbolic_determinants_specialise g (by decide)).1 _ evaluated returned).2 {} s b specialises,
    numeric, valid, bound, shifts, exact,
    (symbolic_determinants_specialise m (by decide)).2 "λ" .three {} s' c numeric valid bound shifts
      exact⟩

/-! ## What the text may miss -/

/-- The value is what a text has as its derivative. -/
def IsDerivative (w : Value) : Prop :=
  ∃ (settings : Settings) (scope : Scope) (source name : String) (e : Expr),
    Expr.parse settings.maxDepth source = .ok e ∧ e.differentiate settings scope name = .ok w

/-- What one might expect of the text of a determinant, with derivatives among the entries: it is
accepted under the limit under which the entries are, and it gives the number that the expansion of
their numbers gives. -/
def TextMeansExpansion (settings : Settings) (s : Scope) (g b : Grid n n) : Prop :=
  (∀ i j, (g.entry i j).IsEvaluated ∨ IsDerivative (g.entry i j)) → g.Specialises settings s b →
    ∀ text, g.determinantCofactor = .ok (.symbolic text) →
      ∃ (tree : Expr) (v w : Decimal), Expr.parse settings.maxDepth text = .ok tree ∧
        tree.eval settings s = .ok (.number v) ∧ b.expand = .ok (.number w) ∧ v.same w = true

/-- The text of a determinant has more levels than its entries have. -/
theorem text_of_expansion_is_deeper :
    ¬TextMeansExpansion (Settings.withMaxDepth {} 1)
      (Scope.root.bindAll [("a", .number .two), ("b", .number .three)])
      ⟨#v[#v[.symbolic "a", .one], #v[.one, .symbolic "b"]]⟩
      ⟨#v[#v[.number .two, .one], #v[.one, .number .three]]⟩ := by
  intro claim
  have first := Grammar.writes_name 0 (show Token.isIdentifier "a" = true by decide)
  have second := Grammar.writes_name 0 (show Token.isIdentifier "b" = true by decide)
  have one := Grammar.writes_number 0 (show Decimal.one.negative = false by decide)
  obtain ⟨_, product⟩ := first.combined (show Operator.multiply ≠ .assign by decide) second
  obtain ⟨_, difference⟩ := product.combined (show Operator.subtract ≠ .assign by decide) one
  have text : "(" ++ ("(" ++ "a" ++ " " ++ Operator.multiply.symbol ++ " " ++ "b" ++ ")") ++ " " ++
      Operator.subtract.symbol ++ " " ++ Decimal.one.text ++ ")" = "((a * b) - 1)" := by decide
  have whole := difference.whole (by omega) (Nat.le_refl 5)
  rw [text] at whole
  refine absurd (claim ?entries ⟨?bound, by decide +kernel, by decide +kernel, ?room⟩
    "((a * b) - 1)" (by decide +kernel)) ?refused
  case entries =>
    exact Fin.forall_fin_two.2
      ⟨Fin.forall_fin_two.2 ⟨.inl (Value.isEvaluated_name (by decide)), .inl (.number _)⟩,
        Fin.forall_fin_two.2 ⟨.inl (.number _), .inl (Value.isEvaluated_name (by decide))⟩⟩
  case bound =>
    exact Fin.forall_fin_two.2
      ⟨Fin.forall_fin_two.2 ⟨Value.bound_name (by decide) (by decide) rfl, rfl⟩,
        Fin.forall_fin_two.2 ⟨rfl, Value.bound_name (by decide) (by decide) rfl⟩⟩
  case room => exact ⟨.number ⟨false, 5, 0, by decide, by decide⟩, by decide +kernel⟩
  case refused =>
    rintro ⟨tree, _, _, parsed, _⟩
    have low := Grammar.height_le_of_parse parsed
    rw [whole.eq_of_parse parsed] at low
    exact absurd low (by decide)

/-- The text of a derivative stands without parentheses, and of `a + b` only `b` is multiplied. -/
theorem text_of_derivative_is_split :
    ¬TextMeansExpansion {} (Scope.root.bindAll [("a", .one), ("b", .number .two)])
      ⟨#v[#v[.symbolic "a + b", .zero], #v[.zero, .number .three]]⟩
      ⟨#v[#v[.number .three, .zero], #v[.zero, .number .three]]⟩ := by
  intro claim
  let sum : Expr := .binary .add (.plain "a") (.plain "b")
  let e : Expr := .binary .multiply sum (.plain "x")
  let inner : Expr := .binary .add (.plain "a") (.binary .multiply (.plain "b") (.number .three))
  have isSum : Expr.parse 1024 sum.render = .ok sum :=
    ((Expr.printed_of_isPrintable (show sum.isPrintable = true by decide)).whole
      (by decide)).parse_eq_ok (Nat.le_refl _) (by decide)
  have isSource : Expr.parse 1024 e.render = .ok e :=
    ((Expr.printed_of_isPrintable (show e.isPrintable = true by decide)).whole
      (by decide)).parse_eq_ok (Nat.le_refl _) (by decide)
  have derivative : IsDerivative (.symbolic "a + b") :=
    ⟨{}, Scope.root, e.render, "x", e, isSource, by decide +kernel⟩
  have group := ((Expr.printed_of_isPrintable (show inner.isPrintable = true by decide)).whole
    (Nat.le_refl _)).parenthesized
  have zero := Grammar.writes_number 0 (show Decimal.zero.negative = false by decide)
  obtain ⟨_, difference⟩ := group.combined (show Operator.subtract ≠ .assign by decide) zero
  have text : "(" ++ ("(" ++ inner.render ++ ")") ++ " " ++ Operator.subtract.symbol ++ " " ++
      Decimal.zero.text ++ ")" = "((a + b * 3) - 0)" := by decide
  have whole := difference.whole (by omega) (Nat.le_refl 5)
  rw [text] at whole
  refine absurd (claim ?entries ⟨?bound, by decide +kernel, by decide +kernel, ?room⟩
    "((a + b * 3) - 0)" (by decide +kernel)) ?differs
  case entries =>
    exact Fin.forall_fin_two.2
      ⟨Fin.forall_fin_two.2 ⟨.inr derivative, .inl (.number _)⟩,
        Fin.forall_fin_two.2 ⟨.inl (.number _), .inl (.number _)⟩⟩
  case bound =>
    have value : sum.eval {} (Scope.root.bindAll [("a", .one), ("b", .number .two)]) =
        .ok (.number .three) := by decide +kernel
    have split : Value.bound {} (Scope.root.bindAll [("a", .one), ("b", .number .two)])
        (.symbolic "a + b") = .ok (.number .three) := by
      rw [show "a + b" = sum.render by decide, Value.bound,
        show Settings.maxDepth {} = 1024 from rfl, isSum]
      exact value
    exact Fin.forall_fin_two.2
      ⟨Fin.forall_fin_two.2 ⟨split, rfl⟩, Fin.forall_fin_two.2 ⟨rfl, rfl⟩⟩
  case room => exact ⟨.number ⟨false, 9, 0, by decide, by decide⟩, by decide +kernel⟩
  case differs =>
    rintro ⟨tree, v, w, parsed, result, number, same⟩
    obtain rfl := whole.eq_of_parse parsed
    have seven : (Expr.binary .subtract inner (.number .zero)).eval {}
        (Scope.root.bindAll [("a", .one), ("b", .number .two)]) =
          .ok (.number ⟨false, 7, 0, by decide, by decide⟩) := by decide +kernel
    have nine : Grid.expand ⟨#v[#v[.number .three, .zero], #v[.zero, .number .three]]⟩ =
        .ok (.number ⟨false, 9, 0, by decide, by decide⟩) := by decide +kernel
    cases seven.symm.trans result
    cases nine.symm.trans number
    exact absurd same (by decide)

/-- The text of a determinant may be refused, and with derivatives among the entries it may mean
something else. -/
theorem symbolic_determinants_may_differ :
    ¬TextMeansExpansion (Settings.withMaxDepth {} 1)
        (Scope.root.bindAll [("a", .number .two), ("b", .number .three)])
        ⟨#v[#v[.symbolic "a", .one], #v[.one, .symbolic "b"]]⟩
        ⟨#v[#v[.number .two, .one], #v[.one, .number .three]]⟩ ∧
      ¬TextMeansExpansion {} (Scope.root.bindAll [("a", .one), ("b", .number .two)])
        ⟨#v[#v[.symbolic "a + b", .zero], #v[.zero, .number .three]]⟩
        ⟨#v[#v[.number .three, .zero], #v[.zero, .number .three]]⟩ :=
  ⟨text_of_expansion_is_deeper, text_of_derivative_is_split⟩

end ValueMatrix

end Reckon
