import Reckon.Proofs.Calculus.Annotations
import Reckon.Proofs.Evaluation.ExactSteps
import Reckon.Proofs.Syntax.Monomials

/-!
# Monomials keep their values

Folding monomials multiplies numbers into coefficients, and reading the text of a monomial behind a
`*` multiplies its coefficient into what stands in front. Products are put in other groups in both
ways. As long as that does not round, the tree that is read from the text evaluates to the number
that the tree evaluated to before its monomials were folded.
-/

namespace Reckon

namespace Expr

/-! ## Products in other groups -/

/-- The number that a number behind minus signs stands for. -/
def constant? : Expr → Option Decimal
  | .number d => some d
  | .signed .negative e => e.constant?.map Decimal.neg
  | _ => none

/-- The number in front of a power. -/
def Form.factor? : Form → Option Decimal
  | .phrase _ _ => none
  | .factors c _ => c.constant?

/-- A number beside a variable is multiplied into its coefficient exactly. -/
def MergesExactly (left right : Expr) : Prop :=
  ∀ c name term, (left = .number c ∧ right.termOf? = some (name, term)) ∨
    (left.termOf? = some (name, term) ∧ right = .number c) → c.MultipliesExactly term.coefficient

/-- There is a decimal for the number times the coefficient that is read behind it. -/
def RegroupsExactly (a : Decimal) (right : Expr) : Prop :=
  ∀ k ∈ right.form.factor?, ∃ m : Decimal, m.toRat = a.toRat * k.toRat

/-- Folding a product multiplies coefficients exactly, and a product that is not folded is read in
other groups without rounding. -/
def KeepsProducts : OperationCondition := fun op left right a =>
  op = .multiply → MergesExactly left.annotate right.annotate ∧
    (foldTerm? .multiply left.annotate right.annotate = none → RegroupsExactly a right.annotate)

section

variable {mode : AngleMode} {s : Scope} {levels : Nat} {c : Expr} {a b v k : Decimal}

/-- A number behind minus signs reaches the number that it stands for. -/
theorem reaches_constant (h : c.constant? = some k) : c.Reaches mode s c.height k := by
  induction c using constant?.induct generalizing k with
  | case1 d =>
    cases h
    exact reaches_number rfl
  | case2 e ih =>
    rw [constant?, Option.map_eq_some_iff] at h
    obtain ⟨inner, isInner, rfl⟩ := h
    exact (ih isInner).signed rfl
  | case3 e noNumber noSign =>
    cases e with
    | number d => exact absurd rfl (noNumber d)
    | signed sign operand =>
      cases sign with
      | negative => exact absurd rfl (noSign operand)
      | positive => cases h
    | _ => cases h

/-- The tree of a printed number stands for its normal form. -/
theorem constant?_signedNumber (d : Decimal) :
    (signedNumber d).constant? = some d.normalize := by
  rw [signedNumber]
  split
  · rw [constant?, constant?, Option.map_some, Decimal.neg_neg]
  · rfl

/-! ## Forms -/

/-- What is read reaches the number: as it stands, or as the product of its factors. -/
def Form.Reaches (mode : AngleMode) (s : Scope) (levels : Nat) (v : Decimal) : Form → Prop
  | .phrase _ e => e.Reaches mode s levels v
  | .factors c p => ∃ k q : Decimal, c.constant? = some k ∧ c.height < levels ∧
      p.Reaches mode s (levels - 1) q ∧ v.toRat = k.toRat * q.toRat

variable {f : Form}

/-- A form that reaches a number with some levels reaches it with more. -/
theorem Form.Reaches.mono {more : Nat} (h : f.Reaches mode s levels v) (le : levels ≤ more) :
    f.Reaches mode s more v := by
  cases f with
  | phrase level e => exact Expr.Reaches.mono h le
  | factors c p =>
    obtain ⟨k, q, isFactor, small, power, product⟩ := h
    exact ⟨k, q, isFactor, by omega, power.mono (by omega), product⟩

/-- The tree of a form reaches what the form reaches. -/
theorem Form.Reaches.tree (h : f.Reaches mode s levels v) : f.tree.Reaches mode s levels v := by
  cases f with
  | phrase level e => exact h
  | factors c p =>
    obtain ⟨k, q, isFactor, small, power, product⟩ := h
    obtain ⟨below, rfl⟩ : ∃ below, levels = below + 1 := ⟨levels - 1, by omega⟩
    exact ((reaches_constant isFactor).mono (by omega)).product power product

/-- A negated form reaches the negated number. -/
theorem Form.Reaches.negated (h : f.Reaches mode s levels v) :
    f.negated.Reaches mode s (levels + 1) v.neg := by
  cases f with
  | phrase level e => exact Expr.Reaches.signed h rfl
  | factors c p =>
    obtain ⟨k, q, isFactor, small, power, product⟩ := h
    refine ⟨k.neg, q, ?_, Nat.succ_lt_succ small, power.mono (by omega), ?_⟩
    · rw [constant?, isFactor, Option.map_some]
    · rw [Decimal.toRat_neg, Decimal.toRat_neg, product, neg_mul]

/-- The factors on the right of a `*` are multiplied one after the other. -/
theorem Form.Reaches.joined {op : Operator} {left : Expr} {bare : Bool}
    (onLeft : left.Reaches mode s levels a) (onRight : f.Reaches mode s levels b)
    (applies : op.AppliesExactly a b v)
    (regroups : op = .multiply → ∀ k ∈ f.factor?, ∃ m : Decimal, m.toRat = a.toRat * k.toRat) :
    (Expr.joined op left bare f).Reaches mode s (levels + 2) v := by
  have apart : (Expr.binary op left f.tree).Reaches mode s (levels + 2) v :=
    (onLeft.binary onRight.tree applies.power applies.applied).mono (Nat.le_succ _)
  rw [Expr.joined]
  split
  · next times =>
    rw [Bool.and_eq_true, decide_eq_true_eq] at times
    obtain ⟨rfl, _⟩ := times
    cases f with
    | phrase level e => exact apart
    | factors c p =>
      obtain ⟨k, q, isFactor, small, power, product⟩ := onRight
      obtain ⟨m, regrouped⟩ := regroups rfl k isFactor
      have first := onLeft.product ((reaches_constant isFactor).mono (Nat.le_of_lt small)) regrouped
      refine first.product (power.mono (by omega)) ?_
      rw [applies.product, product, regrouped, mul_assoc]
  · exact apart

/-! ## Monomials -/

/-- The number is the coefficient times what the power of the name reaches. -/
def MonomialReaches (mode : AngleMode) (s : Scope) (name : String) (term : Monomial)
    (v : Decimal) : Prop :=
  ∃ q : Decimal, (powerOf name term.exponent.normalize).Reaches mode s 3 q ∧
    v.toRat = term.coefficient.toRat * q.toRat ∧
    (term.exponent.normalize.isZero = true → q.toRat = 1)

variable {name : String} {term : Monomial}

/-- What a monomial is read as reaches its number. -/
theorem MonomialReaches.form (h : MonomialReaches mode s name term v) :
    (term.form name).Reaches mode s 4 v := by
  obtain ⟨q, power, product, whole⟩ := h
  have isFactor := constant?_signedNumber term.coefficient
  have low := height_signedNumber_le term.coefficient
  have coefficient := Decimal.toRat_normalize term.coefficient
  rw [Monomial.form]
  split
  · next zero =>
    refine ((reaches_signedNumber term.coefficient).congr ?_).mono (by omega)
    rw [product, whole zero, mul_one]
  · split
    · next unit =>
      have one : term.coefficient.toRat = 1 :=
        (Decimal.same_iff.1 unit).trans Decimal.toRat_one
      refine (power.congr ?_).mono (Nat.le_succ 3)
      rw [product, one, one_mul]
    · split
      · next lone =>
        rw [Bool.and_eq_true] at lone
        have minus : term.coefficient.toRat = -1 :=
          (Decimal.same_iff.1 lone.1).trans Decimal.toRat_negOne
        rw [powerOf, if_pos lone.2] at power
        refine (power.signed rfl).congr ?_
        rw [Decimal.toRat_neg, product, minus, neg_one_mul]
      · refine ⟨_, q, isFactor, by omega, power, ?_⟩
        rw [coefficient, product]

/-- A power of a name reaches its number whenever it is exact. -/
theorem reaches_powerOf {exponent a' : Decimal} (bound : s.binding? name = some (.number a'))
    (same : a'.toRat = a.toRat) (applies : Operator.power.AppliesExactly a exponent v) :
    (powerOf name exponent.normalize).Reaches mode s 3 v := by
  have base : (plain name).Reaches mode s 2 a := (reaches_plain bound same).mono (Nat.le_succ 1)
  have equal := Decimal.toRat_normalize exponent
  rw [powerOf]
  split
  · next one =>
    have exact : Exact.power a.toReal exponent.toReal = some v.toReal := applies.exact
    have isOne : exponent.toReal = 1 := by
      rw [← Decimal.toReal_normalize, Decimal.toReal_congr (Decimal.same_iff.1 one),
        Decimal.toReal_one]
    rw [isOne, Exact.power_one] at exact
    have real : (a.toRat : ℝ) = v.toRat := Option.some.inj exact
    exact (base.congr (by exact_mod_cast real)).mono (Nat.le_succ 2)
  · split
    · have negative : (Expr.signed .negative (.number exponent.normalize.neg)).Reaches mode s 2
          exponent := by
        refine ((reaches_number rfl).signed rfl).congr ?_
        rw [Decimal.neg_neg, equal]
      exact base.binary negative applies.power applies.applied
    · exact base.binary ((reaches_number equal).mono (Nat.le_succ 1)) applies.power applies.applied

/-- A name alone is a monomial. -/
theorem monomialReaches_plain {a' : Decimal} (bound : s.binding? name = some (.number a'))
    (same : a'.toRat = v.toRat) : MonomialReaches mode s name ⟨.one, .one⟩ v := by
  refine ⟨v, ?_, ?_, fun zero => absurd zero (by decide)⟩
  · rw [powerOf, if_pos (by decide)]
    exact (reaches_plain bound same).mono (by decide)
  · rw [Decimal.toRat_one, one_mul]

/-- A power without a coefficient reaches what the power of the bound number is. -/
theorem monomialReaches_power {exponent a' : Decimal} (bound : s.binding? name = some (.number a'))
    (same : a'.toRat = a.toRat) (applies : Operator.power.AppliesExactly a exponent v) :
    MonomialReaches mode s name ⟨.one, exponent⟩ v := by
  refine ⟨v, reaches_powerOf bound same applies, ?_, fun zero => ?_⟩
  · rw [Decimal.toRat_one, one_mul]
  · have exact : Exact.power a.toReal exponent.toReal = some v.toReal := applies.exact
    have isZero : exponent.toReal = 0 := by
      rw [← Decimal.toReal_normalize, Decimal.toReal_of_isZero zero]
    rw [isZero, Exact.power_zero] at exact
    have real : (1 : ℝ) = v.toRat := Option.some.inj exact
    exact_mod_cast real.symm

/-- A monomial with a number multiplied into its coefficient reaches the multiplied number. -/
theorem MonomialReaches.scaled {coefficient : Decimal} (h : MonomialReaches mode s name term b)
    (exact : a.MultipliesExactly term.coefficient) (found : a.mul? term.coefficient = some coefficient)
    (product : v.toRat = a.toRat * b.toRat) :
    MonomialReaches mode s name ⟨coefficient, term.exponent⟩ v := by
  obtain ⟨q, power, whole, one⟩ := h
  refine ⟨q, power, ?_, one⟩
  rw [product, whole, exact coefficient found, mul_assoc]

/-! ## Folded trees -/

/-- What is known of a folded tree whose text is read: its number, that of its name, or that of its
monomial, and that its form reaches the number. -/
structure ReadsAs (mode : AngleMode) (s : Scope) (levels : Nat) (e : Expr) (v : Decimal) : Prop where
  number : ∀ d, e = .number d → d = v
  plain : ∀ name, e = Expr.plain name → ∃ a, s.binding? name = some (.number a) ∧ a.toRat = v.toRat
  monomial : ∀ name term, e.termOf? = some (name, term) → MonomialReaches mode s name term v
  form : e.form.Reaches mode s levels v

/-- A monomial that reaches a number is read as that number. -/
theorem readsAs_monomial (h : MonomialReaches mode s name term v) :
    ReadsAs mode s 4 (.variable name (some term)) v where
  number := nofun
  plain := nofun
  monomial name' term' same := by
    cases same
    exact h
  form := h.form

variable {op : Operator} {left right folded : Expr}

/-- Two operands that fold give a monomial with the number of the operation. -/
theorem ReadsAs.foldTerm (onLeft : ReadsAs mode s levels left a)
    (onRight : ReadsAs mode s levels right b) (applies : op.AppliesExactly a b v)
    (merges : op = .multiply → MergesExactly left right)
    (folds : foldTerm? op left right = some folded) : ReadsAs mode s 4 folded v := by
  cases folds_of_foldTerm? folds with
  | @scaledRight c coefficient name term product =>
    obtain rfl := onLeft.number c rfl
    have exact := merges rfl c name _ (.inl ⟨rfl, rfl⟩)
    exact readsAs_monomial ((onRight.monomial name _ rfl).scaled exact product applies.product)
  | @scaledLeft c coefficient name term product =>
    obtain rfl := onRight.number c rfl
    have exact := merges rfl c name _ (.inr ⟨rfl, rfl⟩)
    exact readsAs_monomial ((onLeft.monomial name _ rfl).scaled exact product
      (applies.product.trans (mul_comm _ _)))
  | power name n =>
    obtain ⟨a', bound, same⟩ := onLeft.plain name rfl
    obtain rfl := onRight.number n rfl
    exact readsAs_monomial (monomialReaches_power bound same applies)

/-- Folded or not, an operation is read as its number. -/
theorem ReadsAs.foldBinary (onLeft : ReadsAs mode s levels left a)
    (onRight : ReadsAs mode s levels right b) (applies : op.AppliesExactly a b v)
    (keeps : op = .multiply → MergesExactly left right ∧
      (foldTerm? .multiply left right = none → RegroupsExactly a right)) :
    ReadsAs mode s (levels + 4) (foldBinary op left right) v := by
  rw [Expr.foldBinary]
  cases folds : foldTerm? op left right with
  | some folded =>
    have reads := onLeft.foldTerm onRight applies (fun times => (keeps times).1) folds
    exact { reads with form := reads.form.mono (Nat.le_add_left 4 levels) }
  | none =>
    refine ⟨fun d same => ?_, fun name same => ?_, fun name term same => ?_, ?_⟩
    any_goals cases same
    have joined : (Expr.joined op left.form.tree (!right.needsParens op true) right.form).Reaches
        mode s (levels + 2) v := by
      refine Form.Reaches.joined onLeft.form.tree onRight.form applies fun times k isFactor => ?_
      rw [times] at folds
      exact (keeps times).2 folds k isFactor
    exact joined.mono (by omega)

end

/-! ## The whole tree -/

/-- The trees that are read from folded arguments reach the numbers of the arguments. -/
theorem reaches_formTrees {mode : AngleMode} {s : Scope} {levels : Nat} {args : List Expr}
    {numbers : List Decimal}
    (h : List.Forall₂ (fun arg d => ReadsAs mode s levels arg.annotate d) args numbers) :
    List.Forall₂ (fun arg d => Reaches mode s levels arg d) (formTrees (annotateAll args))
      numbers := by
  induction h with
  | nil => exact .nil
  | cons first _ ih => exact .cons first.form.tree ih

/-- A call that evaluates exactly is read from the text of its folded form as the same number, if
that holds of every tree with one level less. -/
theorem reaches_call {settings : Settings} {levels : Nat} {s s' : Scope} {name : String}
    {args : List Expr} {v : Decimal}
    (ih : ∀ s s' e v, EvaluatesExactly settings levels KeepsProducts s e v → s.SameNumbers s' →
      ReadsAs settings.angle s' (4 * levels) e.annotate v)
    (h : EvaluatesExactly settings (levels + 1) KeepsProducts s (.call name args) v)
    (same : s.SameNumbers s') :
    (call name (formTrees (annotateAll args))).Reaches settings.angle s' (4 * levels + 1) v := by
  rw [EvaluatesExactly] at h
  split at h
  · next f found =>
    obtain ⟨arity, numbers, given, body⟩ := h
    have reads := reaches_formTrees (given.imp fun _ _ value => ih _ _ _ _ value same)
    refine reaches_user (by rw [same.functions, found]) ?_ reads fun numbers' equals => ?_
    · rw [reads.length_eq, ← given.length_eq, arity]
    · exact (reaches_of_evaluatesExactly body (same.call f.params equals)).mono (by omega)
  · next free =>
    have free' : s'.functions.get? name = none := by rw [same.functions, free]
    rcases h with ⟨rfl, body, target, lower, upper, low, high, sample, rfl, atLower, atUpper,
      samples, area⟩ | ⟨other, native, numbers, known, given, byValue, called⟩
    · exact reaches_integral free' (ih _ _ _ _ atLower same).form.tree
        (ih _ _ _ _ atUpper same).form.tree
        (fun x y value x' point =>
          (ih _ _ _ _ (samples x y value) (same.sample target point)).form.tree) area
    · exact reaches_native free' other (by rw [same.natives, known])
        (reaches_formTrees (given.imp fun _ _ value => ih _ _ _ _ value same)) byValue called

/-- A tree that evaluates exactly is read from the text of its folded form as the same number. -/
theorem readsAs_of_evaluatesExactly {settings : Settings} {levels : Nat} {s s' : Scope} {e : Expr}
    {v : Decimal} (h : EvaluatesExactly settings levels KeepsProducts s e v)
    (same : s.SameNumbers s') : ReadsAs settings.angle s' (4 * levels) e.annotate v := by
  -- The induction is on the levels: bodies of functions are no parts of the tree, and integrands are
  -- evaluated in scopes of their own. Four levels are kept for each, as many as a monomial takes.
  induction levels generalizing s s' e v with
  | zero => exact h.elim
  | succ levels ih =>
    have room : 1 ≤ 4 * (levels + 1) := by omega
    cases e with
    | number d =>
      obtain rfl : d = v := h
      have low := height_signedNumber_le d
      have reaches : (signedNumber d).Reaches settings.angle s' (4 * (levels + 1)) d :=
        (reaches_signedNumber d).mono (by omega)
      exact ⟨fun c equal => (Expr.number.inj equal).symm, nofun, nofun, reaches⟩
    | «variable» name term =>
      cases term with
      | some term => exact h.elim
      | none =>
        obtain ⟨d, bound, equal⟩ := (same.bindings name).exists_number h
        refine ⟨nofun, fun name' own => ?_, fun name' term own => ?_, ?_⟩
        · cases own
          exact ⟨d, bound, equal⟩
        · cases own
          exact monomialReaches_plain bound equal
        · exact (reaches_plain bound equal).mono room
    | signed sign operand =>
      obtain ⟨a, inner, result⟩ := h
      have reads := (ih inner same).form
      refine ⟨nofun, nofun, nofun, ?_⟩
      rw [annotate]
      cases sign with
      | positive =>
        cases result
        rw [form]
        split
        · exact reads.tree.mono (by omega)
        · exact reads.mono (by omega)
      | negative =>
        cases result
        rw [form]
        split
        · exact (reads.tree.signed rfl).mono (by omega)
        · exact reads.negated.mono (by omega)
    | binary op left right =>
      obtain ⟨a, b, onLeft, onRight, applies, keeps⟩ := h
      exact (ih onLeft same).foldBinary (ih onRight same) applies keeps
    | vector items => exact h.elim
    | matrix columns => exact h.elim
    | definition name params body => exact h.elim
    | call name args =>
      exact ⟨nofun, nofun, nofun, (reaches_call (fun _ _ _ _ => ih) h same).mono (by omega)⟩

end Expr

end Reckon
