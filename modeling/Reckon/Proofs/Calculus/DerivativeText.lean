import Reckon.Proofs.Calculus.FormalDerivative
import Reckon.Proofs.Calculus.Regrouping
import Reckon.Proofs.Syntax.Names

/-!
# The text of a derivative means the derivative

A derivative is put together from parts of a parsed tree, so its names can be read; it has been
evaluated, so it is a scalar. Its monomials are folded and it is written down, and the tree that is
read from the text evaluates to the number that the derivative evaluates to.
-/

namespace Reckon

namespace Expr

open Token (isIdentifier)

/-! ## Names of derivatives -/

section

variable {a b : Expr}

/-- The negated tree has names that can be read. -/
theorem isNamed_negated (ha : a.isNamed = true) : a.negated.isNamed = true := by
  unfold negated
  split
  · rfl
  · exact ha
  · exact ha

/-- The simplified sum takes its names from the operands. -/
theorem isNamed_plus (ha : a.isNamed = true) (hb : b.isNamed = true) :
    (plus a b).isNamed = true := by
  unfold plus
  repeat' split
  all_goals first
    | exact ha
    | exact hb
    | rfl
    | exact Grammar.isNamed_binary ha hb
    | exact Grammar.isNamed_binary ha rfl

/-- The simplified difference takes its names from the operands. -/
theorem isNamed_minus (ha : a.isNamed = true) (hb : b.isNamed = true) :
    (minus a b).isNamed = true := by
  unfold minus
  repeat' split
  all_goals first
    | exact ha
    | exact isNamed_negated hb
    | rfl
    | exact Grammar.isNamed_binary ha hb
    | exact Grammar.isNamed_binary ha rfl

/-- A scaled tree takes its names from the tree. -/
theorem isNamed_scaled (c : Decimal) (ha : a.isNamed = true) : (scaled c a).isNamed = true := by
  fun_induction scaled c a with
  | case1 => rfl
  | case2 => exact ha
  | case3 => rfl
  | case4 => rfl
  | case5 => exact Grammar.isNamed_binary rfl ha
  | case6 c _ x rest _ _ _ _ ih => exact ih (Bool.and_eq_true_iff.1 ha).2
  | case7 => exact Grammar.isNamed_binary rfl ha
  | case8 => exact Grammar.isNamed_binary rfl ha

/-- The simplified product takes its names from the operands. -/
theorem isNamed_times (ha : a.isNamed = true) (hb : b.isNamed = true) :
    (times a b).isNamed = true := by
  unfold times
  split
  · exact isNamed_scaled _ hb
  · exact isNamed_scaled _ ha
  · exact Grammar.isNamed_binary ha hb

/-- The simplified quotient takes its names from the operands. -/
theorem isNamed_dividedBy (ha : a.isNamed = true) (hb : b.isNamed = true) :
    (dividedBy a b).isNamed = true := by
  unfold dividedBy
  repeat' split
  all_goals first
    | exact ha
    | rfl
    | exact Grammar.isNamed_binary ha hb

/-- The simplified power takes its names from the operands. -/
theorem isNamed_toThe (ha : a.isNamed = true) (hb : b.isNamed = true) :
    (toThe a b).isNamed = true := by
  unfold toThe
  repeat' split
  all_goals first
    | exact ha
    | rfl
    | exact Grammar.isNamed_binary ha hb

end

namespace Setting

variable {s : Setting} {e d : Expr} {depth : Nat} {belowMinus : Bool}

/-- A folded part is a number or keeps its names. -/
theorem isNamed_of_fold {f : Expr} (named : e.isNamed = true) (h : s.fold e = .ok f) :
    f.isNamed = true := by
  unfold fold at h
  split at h
  · cases h
  · split at h
    · cases h
      rfl
    · cases h
      exact named

/-- A lowered exponent takes its names from the exponent. -/
theorem isNamed_of_lowered {n m : Expr} (named : n.isNamed = true) (h : lowered n = .ok m) :
    m.isNamed = true := by
  unfold lowered at h
  split at h
  · next c =>
    cases less : lessOne c with
    | error fault =>
      rw [less] at h
      cases h
    | ok lower =>
      rw [less] at h
      cases h
      rfl
  · cases h
    exact isNamed_minus named rfl

/-- The derivative of a tree with names that can be read is such a tree. -/
theorem isNamed_of_derive (named : e.isNamed = true) (h : s.derive belowMinus depth e = .ok d) :
    d.isNamed = true := by
  induction e using hasConstantBase.induct generalizing belowMinus depth d with
  | case1 sign operand ih =>
    obtain ⟨inner, derived, rfl⟩ := step_of_derive h
    have named := ih named derived
    split
    · exact named
    · exact isNamed_negated named
  | case2 op left right ih ih' =>
    rw [isNamed, Bool.and_eq_true] at named
    obtain ⟨namedLeft, namedRight⟩ := named
    cases op with
    | add =>
      obtain ⟨df, dg, first, second, rfl⟩ := step_of_derive h
      exact isNamed_plus (ih namedLeft first) (ih' namedRight second)
    | subtract =>
      obtain ⟨df, dg, first, second, rfl⟩ := step_of_derive h
      exact isNamed_minus (ih namedLeft first) (ih' namedRight second)
    | multiply =>
      obtain ⟨f, g, df, dg, keptLeft, keptRight, first, second, rfl⟩ := step_of_derive h
      exact isNamed_plus (isNamed_times (ih namedLeft first) (isNamed_of_fold namedRight keptRight))
        (isNamed_times (isNamed_of_fold namedLeft keptLeft) (ih' namedRight second))
    | divide =>
      obtain ⟨f, g, df, keptLeft, keptRight, first, cases⟩ := step_of_derive h
      have namedF := isNamed_of_fold namedLeft keptLeft
      have namedG := isNamed_of_fold namedRight keptRight
      rcases cases with ⟨_, rfl⟩ | ⟨_, dg, second, rfl⟩
      · exact isNamed_dividedBy (ih namedLeft first) namedG
      · exact isNamed_dividedBy (isNamed_minus (isNamed_times (ih namedLeft first) namedG)
          (isNamed_times namedF (ih' namedRight second))) (isNamed_toThe namedG rfl)
    | power =>
      rcases step_of_derive h with ⟨_, _, rfl⟩ |
        ⟨_, n, m, b, df, keptExponent, less, keptBase, inner, rfl⟩ |
        ⟨_, _, b, l, n, dg, keptBase, logarithm, keptExponent, inner, rfl⟩
      · rfl
      · have namedN := isNamed_of_fold namedRight keptExponent
        exact isNamed_times (isNamed_times namedN (isNamed_toThe
          (isNamed_of_fold namedLeft keptBase) (isNamed_of_lowered namedN less)))
          (ih namedLeft inner)
      · have namedB := isNamed_of_fold namedLeft keptBase
        have namedCall : (call "ln" [b]).isNamed = true := by
          rw [isNamed, areNamed, namedB]
          rfl
        exact isNamed_times (isNamed_times (isNamed_toThe namedB
          (isNamed_of_fold namedRight keptExponent)) (isNamed_of_fold namedCall logarithm))
          (ih' namedRight inner)
    | _ => exact (step_of_derive h).elim
  | case3 e noSign noOperator =>
    rcases derive_leaf noSign noOperator h with ⟨_, rfl⟩ | ⟨term, rfl, step⟩
    · rfl
    · rw [isNamed, Bool.and_eq_true, Option.isNone_iff_eq_none] at named
      obtain ⟨rfl, _⟩ := named
      rw [deriveVariable, if_neg (not_not.2 rfl)] at step
      cases step
      rfl

end Setting

/-! ## Scalars -/

/-- The integrand has a value at the lower bound. -/
theorem exists_sample {f : Decimal → Except Fault Decimal} {lower upper v : Decimal}
    {intervals : UInt64} (h : simpson lower upper intervals f = .ok v) : ∃ y, f lower = .ok y := by
  obtain ⟨count, _, h⟩ := bind_eq_ok.1 h
  obtain ⟨width, _, h⟩ := bind_eq_ok.1 h
  obtain ⟨step, _, h⟩ := bind_eq_ok.1 h
  obtain ⟨first, atLower, _⟩ := bind_eq_ok.1 h
  exact ⟨first, atLower⟩

section

variable {settings : Settings} {levels : Nat} {s : Scope} {name : String} {args : List Expr}

/-- Arguments that have values are scalars, if that holds of each of them. -/
theorem areWritable_of_mapM {values : List Value}
    (ih : ∀ e w, e.isNamed = true → evalWithin settings levels s e = .ok w → e.isWritable = true)
    (named : areNamed args = true)
    (given : args.mapM (fun arg => evalWithin settings levels s arg) = .ok values) :
    areWritable args = true := by
  induction args generalizing values with
  | nil => rfl
  | cons arg args more =>
    rw [areNamed, Bool.and_eq_true] at named
    obtain ⟨v, vs, first, others, _⟩ := mapM_cons_eq_ok.1 given
    rw [areWritable, ih arg v named.1 first, more named.2 others]
    rfl

/-- The arguments of a call that has a value are scalars, if that holds of every tree with one level
less: an integral asks for its integrand at the lower bound, the other calls for every argument. -/
theorem areWritable_of_call {w : Value}
    (ih : ∀ s e w, e.isNamed = true → evalWithin settings levels s e = .ok w → e.isWritable = true)
    (named : areNamed args = true)
    (h : evalWithin settings (levels + 1) s (.call name args) = .ok w) : areWritable args = true := by
  cases user : s.functions.get? name with
  | some f =>
    obtain ⟨_, values, given, _⟩ := (evalWithin_user_eq_ok user).1 h
    exact areWritable_of_mapM (ih s) named given
  | none =>
    by_cases integral : name = integralName
    · subst integral
      rw [evalWithin_integral user, integralForm_eq_ok] at h
      obtain ⟨body, target, lower, upper, low, high, area, rfl, atLower, atUpper, found, _⟩ := h
      obtain ⟨y, sampled⟩ := exists_sample found
      simp only [areNamed, Bool.and_eq_true] at named
      obtain ⟨namedBody, namedTarget, namedLower, namedUpper, _⟩ := named
      split at sampled
      · cases sampled
      · next value atLow =>
        simp only [areWritable, ih _ _ _ namedBody atLow, ih _ _ _ namedLower atLower,
          ih _ _ _ namedUpper atUpper, isWritable, (Bool.and_eq_true_iff.1 namedTarget).2,
          Bool.and_true]
    · obtain ⟨native, values, _, given, _⟩ := (evalWithin_native_eq_ok user integral).1 h
      exact areWritable_of_mapM (ih s) named given

end

/-- What has a value is a scalar. -/
theorem isWritable_of_evalWithin {settings : Settings} {levels : Nat} {s : Scope} {e : Expr}
    {w : Value} (named : e.isNamed = true) (h : evalWithin settings levels s e = .ok w) :
    e.isWritable = true := by
  induction levels generalizing s e w with
  | zero => exact absurd h evalWithin_zero_ne_ok
  | succ levels ih =>
    cases e with
    | number d => rfl
    | «variable» name term => exact (Bool.and_eq_true_iff.1 named).2
    | signed sign operand =>
      obtain ⟨v, value, _⟩ := evalWithin_signed_eq_ok.1 h
      have namedOperand : operand.isNamed = true := named
      have inner : operand.isWritable = true := ih namedOperand value
      exact inner
    | binary op left right =>
      rw [isNamed, Bool.and_eq_true] at named
      obtain ⟨l, r, hl, hr, _⟩ := evalWithin_binary_eq_ok.1 h
      rw [isWritable, ih named.1 hl, ih named.2 hr]
      rfl
    | vector items => exact absurd h evalWithin_vector_ne_ok
    | matrix columns => exact absurd h evalWithin_matrix_ne_ok
    | definition name params body => exact absurd h evalWithin_definition_ne_ok
    | call name args =>
      rw [isNamed, Bool.and_eq_true] at named
      rw [isWritable, named.1, areWritable_of_call (fun _ _ _ => ih) named.2 h]
      rfl

/-- A folded variable has the name of an operand. -/
theorem isWritable_of_foldTerm {op : Operator} {left right folded : Expr}
    (hl : left.isWritable = true) (hr : right.isWritable = true)
    (h : foldTerm? op left right = some folded) : folded.isWritable = true := by
  cases folds_of_foldTerm? h with
  | scaledRight product => exact hr
  | scaledLeft product => exact hl
  | power name n => exact hl

mutual

/-- Folding monomials keeps names. -/
theorem isWritable_annotate : ∀ {e : Expr}, e.isWritable = true → e.annotate.isWritable = true
  | .number _, h => h
  | .variable _ _, h => h
  | .signed _ operand, h => isWritable_annotate (e := operand) h
  | .binary op left right, h => by
    rw [isWritable, Bool.and_eq_true] at h
    have onLeft := isWritable_annotate h.1
    have onRight := isWritable_annotate h.2
    rw [annotate, foldBinary]
    cases folds : foldTerm? op left.annotate right.annotate with
    | some folded => exact isWritable_of_foldTerm onLeft onRight folds
    | none =>
      rw [Option.getD_none, isWritable, onLeft, onRight]
      rfl
  | .call name args, h => by
    rw [isWritable, Bool.and_eq_true] at h
    rw [annotate, isWritable, h.1, areWritable_annotateAll h.2]
    rfl

/-- Folding monomials keeps names in each of some trees. -/
theorem areWritable_annotateAll :
    ∀ {es : List Expr}, areWritable es = true → areWritable (annotateAll es) = true
  | [], _ => rfl
  | e :: es, h => by
    rw [areWritable, Bool.and_eq_true] at h
    rw [annotateAll, areWritable, isWritable_annotate h.1, areWritable_annotateAll h.2]
    rfl

end

/-! ## The text -/

/-- A symbolic derivative is the text of its folded form. -/
theorem differentiate_eq_symbolic {settings : Settings} {scope : Scope} {v text : String} {e : Expr}
    (h : e.differentiate settings scope v = .ok (.symbolic text)) :
    ∃ d shown, (⟨settings, scope.child, v⟩ : Setting).derive false 0 e = .ok d ∧
      d.eval settings scope.child = .ok (.symbolic shown) ∧ text = d.annotate.render := by
  obtain ⟨d, derived, h⟩ := bind_eq_ok.1 h
  obtain ⟨w, value, h⟩ := bind_eq_ok.1 h
  cases w with
  | number c =>
    have rounded : (Value.number c).rounded settings.precision = .symbolic text := Except.ok.inj h
    cases Value.rounded_eq_symbolic.1 rounded
  | symbolic shown =>
    cases h
    exact ⟨d, _, derived, value, rfl⟩

/-- The text of a derivative means the derivative. It is accepted by the parser under every limit
that is large enough, if it is read as it is meant; and in every scope in which the derivative
evaluates to a number exactly, and does so with its products grouped as in the text, the tree that
is read evaluates to the same number. -/
theorem text_of_derivative_means_derivative {settings : Settings} {scope : Scope} {maxDepth : Nat}
    {source v text : String} {e : Expr} (parsed : parse maxDepth source = .ok e)
    (symbolic : e.differentiate settings scope v = .ok (.symbolic text)) :
    ∃ d, (⟨settings, scope.child, v⟩ : Setting).derive false 0 e = .ok d ∧
      text = d.annotate.render ∧
      (d.annotate.readsBack = true → ∃ result enough,
        (∀ limit, enough ≤ limit → parse limit text = .ok result) ∧
        ∀ (bound : Scope) (value : Decimal),
          d.EvaluatesExactly settings (settings.maxDepth + 1) KeepsProducts bound value →
          ∃ w, d.eval settings bound = .ok (.number w) ∧
            ∀ limit, enough ≤ limit → ∃ w',
              result.eval (settings.withMaxDepth limit) bound = .ok (.number w') ∧
                w'.same w = true) := by
  obtain ⟨d, shown, derived, evaluated, rfl⟩ := differentiate_eq_symbolic symbolic
  have named : d.isNamed = true := Setting.isNamed_of_derive (isNamed_of_parse parsed) derived
  have writable := isWritable_annotate (isWritable_of_evalWithin named evaluated)
  refine ⟨d, derived, rfl, fun reads => ⟨d.annotate.form.tree,
    4 * d.annotate.height + d.annotate.form.tree.height + 4 * (settings.maxDepth + 1), ?_, ?_⟩⟩
  · intro limit enough
    exact parse_render_of_readsBack writable reads (by omega) (by omega)
  · intro bound value exact
    have same := Scope.SameNumbers.refl bound
    obtain ⟨w, result, equal⟩ :=
      reaches_of_evaluatesExactly exact same settings _ rfl (Nat.le_refl _)
    refine ⟨w, result, fun limit enough => ?_⟩
    obtain ⟨w', result', equal'⟩ := (readsAs_of_evaluatesExactly exact same).form.tree
      (settings.withMaxDepth limit) (limit + 1) rfl (by omega)
    exact ⟨w', result', Decimal.same_iff.2 (equal'.trans equal.symm)⟩

/-- The derivative of `y * x ^ 3` is read as `(y * 3) * x ^ 2`. -/
theorem text_of_derivative_means_derivative_cube :
    let cube : Expr := .binary .multiply (plain "y") (.binary .power (plain "x") (.number .three))
    let bound : Scope := Scope.root.bindAll [("x", .number .two), ("y", .number .three)]
    parse 16 "y * x^3" = .ok cube ∧
      cube.differentiate {} Scope.root "x" = .ok (.symbolic "y * 3x^2") ∧
      ∃ d, (⟨{}, Scope.root.child, "x"⟩ : Setting).derive false 0 cube = .ok d ∧
        d.annotate.readsBack = true ∧
        ∃ value, d.EvaluatesExactly {} 1025 KeepsProducts bound value ∧
        ∃ result enough w, (∀ limit, enough ≤ limit → parse limit "y * 3x^2" = .ok result) ∧
          d.eval {} bound = .ok (.number w) ∧ ∀ limit, enough ≤ limit → ∃ w',
            result.eval (Settings.withMaxDepth {} limit) bound = .ok (.number w') ∧
              w'.same w = true := by
  intro cube bound
  let d : Expr := .binary .multiply (plain "y")
    (.binary .multiply (.number .three) (.binary .power (plain "x") (.number .two)))
  let four : Decimal := ⟨false, 4, 0, by decide, by decide⟩
  let twelve : Decimal := ⟨false, 12, 0, by decide, by decide⟩
  let value : Decimal := ⟨false, 36, 0, by decide, by decide⟩
  have parsed : parse 16 "y * x^3" = .ok cube := by
    have printed := printed_of_isPrintable (show cube.isPrintable = true by decide)
    exact (printed.whole (by decide)).parse_eq_ok (Nat.le_refl 16) (by decide)
  have symbolic : cube.differentiate {} Scope.root "x" = .ok (.symbolic "y * 3x^2") := by
    decide +kernel
  have derived : (⟨{}, Scope.root.child, "x"⟩ : Setting).derive false 0 cube = .ok d := by
    decide +kernel
  have reads : d.annotate.readsBack = true := by decide
  have square : Operator.power.AppliesExactly .two .two four := by
    refine ⟨rfl, ?_, fun _ small => absurd small (by decide)⟩
    have four : four.toReal = 4 := by
      rw [Decimal.toReal, show four.toRat = 4 by decide, Rat.cast_ofNat]
    rw [Exact.operate, Decimal.toReal_two, Exact.power_two, four]
    norm_num
  have exact : d.EvaluatesExactly {} 1025 KeepsProducts bound value := by
    refine ⟨.three, twelve, rfl, ⟨.three, four, rfl,
      ⟨.two, .two, rfl, rfl, square, fun isProduct => Operator.noConfusion isProduct⟩,
      .of_mul? (by decide) (by decide +kernel), fun _ => ⟨?_, fun isFactors => ?_⟩⟩,
      .of_mul? (by decide) (by decide +kernel), fun _ => ⟨?_, fun _ => ?_⟩⟩
    · rintro c name term (⟨isNumber, isTerm⟩ | ⟨isTerm, _⟩)
      · cases isNumber
        cases isTerm
        decide +kernel
      · cases isTerm
    · cases isFactors
    · rintro c name term (⟨isNumber, _⟩ | ⟨_, isNumber⟩) <;> cases isNumber
    · intro k isFactor
      cases isFactor
      exact ⟨⟨false, 9, 0, by decide, by decide⟩, by decide +kernel⟩
  obtain ⟨d', derived', _, means⟩ := text_of_derivative_means_derivative parsed symbolic
  obtain rfl : d = d' := Except.ok.inj (derived.symm.trans derived')
  obtain ⟨result, enough, accepted, evaluates⟩ := means reads
  obtain ⟨w, evaluated, evaluated'⟩ := evaluates bound value exact
  exact ⟨parsed, symbolic, d, derived, reads, value, exact, result, enough, w, accepted, evaluated,
    evaluated'⟩

/-! ## What the text may change -/

/-- What one might expect of the text of a derivative: it is accepted under the limit under which
the source is, and it gives the number of the derivative wherever that evaluates exactly. -/
def TextMeansDerivative (settings : Settings) (scope : Scope) (source v text : String) : Prop :=
  ∀ e, parse settings.maxDepth source = .ok e →
    e.differentiate settings scope v = .ok (.symbolic text) →
    ∃ d result, (⟨settings, scope.child, v⟩ : Setting).derive false 0 e = .ok d ∧
      parse settings.maxDepth text = .ok result ∧
      ∀ (bound : Scope) (value : Decimal),
        d.EvaluatesExactly settings (settings.maxDepth + 1) (fun _ _ _ _ => True) bound value →
        ∃ w, result.eval settings bound = .ok (.number w) ∧ w.same value = true

/-- It is not met where the tree that is read has another value. -/
theorem not_textMeansDerivative {settings : Settings} {scope : Scope} {source v : String}
    {e d : Expr} (parsed : parse settings.maxDepth source = .ok e)
    (symbolic : e.differentiate settings scope v = .ok (.symbolic d.annotate.render))
    (derived : (⟨settings, scope.child, v⟩ : Setting).derive false 0 e = .ok d)
    (writable : d.annotate.isWritable = true) (reads : d.annotate.readsBack = true)
    {bound : Scope} {value : Decimal}
    (exact : d.EvaluatesExactly settings (settings.maxDepth + 1) (fun _ _ _ _ => True) bound value)
    (deep : 4 * d.annotate.height ≤ settings.maxDepth)
    (low : d.annotate.form.tree.height ≤ settings.maxDepth)
    (differs : ∀ w, d.annotate.form.tree.eval settings bound = .ok (.number w) →
      w.same value = false) :
    ¬TextMeansDerivative settings scope source v d.annotate.render := by
  intro claim
  obtain ⟨d', result, derived', accepted, means⟩ := claim e parsed symbolic
  obtain rfl : d = d' := Except.ok.inj (derived.symm.trans derived')
  rw [parse_render_of_readsBack writable reads deep low] at accepted
  cases accepted
  obtain ⟨w, evaluated, same⟩ := means bound value exact
  rw [differs w evaluated] at same
  cases same

/-- The coefficients of the text may be rounded: the two factors of `y` become zero. -/
theorem text_of_tiny_product_rounds :
    ¬TextMeansDerivative {} Scope.root "x * (0.000000000000001 * (0.000000000000001 * y))" "x"
      "0y" := by
  let tiny : Decimal := ⟨false, 1, 15, by decide, by decide⟩
  let large : Decimal := ⟨false, 1000000000000000000000000000, 0, by decide, by decide⟩
  let product : Decimal := ⟨false, 1000000000000000000000000000, 15, by decide, by decide⟩
  let value : Decimal := ⟨false, 10000000000000000000000000, 28, by decide, by decide⟩
  let d : Expr := .binary .multiply (.number tiny) (.binary .multiply (.number tiny) (plain "y"))
  let e : Expr := .binary .multiply (plain "x") d
  have source : e.render = "x * (0.000000000000001 * (0.000000000000001 * y))" := by decide
  have parsed : parse 1024 e.render = .ok e := by
    have printed := printed_of_isPrintable (show e.isPrintable = true by decide)
    exact (printed.whole (Nat.le_refl _)).parse_eq_ok (by decide) (by decide)
  have symbolic : e.differentiate {} Scope.root "x" = .ok (.symbolic "0y") := by decide +kernel
  have derived : (⟨{}, Scope.root.child, "x"⟩ : Setting).derive false 0 e = .ok d := by
    decide +kernel
  have text : d.annotate.render = "0y" := by decide
  have read : d.annotate.form.tree = .binary .multiply (.number .zero) (plain "y") := by
    decide +kernel
  have exact : d.EvaluatesExactly {} 1025 (fun _ _ _ _ => True)
      (Scope.root.bind "y" (.number large)) value := by
    refine ⟨tiny, product, rfl, ⟨tiny, large, rfl, rfl, .of_mul? ?_ ?_, trivial⟩, .of_mul? ?_ ?_,
      trivial⟩ <;> decide +kernel
  have zero : (Expr.binary .multiply (.number .zero) (plain "y")).eval {}
      (Scope.root.bind "y" (.number large)) = .ok (.number .zero) := by
    refine evalWithin_binary_eq_ok.2 ⟨.number .zero, .number large, rfl, rfl, ?_⟩
    decide +kernel
  rw [← text] at symbolic ⊢
  rw [← source]
  refine not_textMeansDerivative parsed symbolic derived (by decide) (by decide) exact (by decide)
    (by decide) fun w evaluated => ?_
  rw [read, zero] at evaluated
  cases evaluated
  decide +kernel

/-- Behind a `*`, the number in front is multiplied by the coefficient first, and there may be no
room for that product. -/
theorem text_of_large_product_overflows :
    ¬TextMeansDerivative {} Scope.root "a * x^2" "x" "a * 2x" := by
  let most : Decimal := ⟨false, 79228162514264337593543950335, 0, by decide, by decide⟩
  let half : Decimal := ⟨false, 5, 1, by decide, by decide⟩
  let one : Decimal := ⟨false, 10, 1, by decide, by decide⟩
  let d : Expr := .binary .multiply (plain "a") (.binary .multiply (.number .two) (plain "x"))
  let e : Expr := .binary .multiply (plain "a") (.binary .power (plain "x") (.number .two))
  let bound : Scope := Scope.root.bindAll [("a", .number most), ("x", .number half)]
  have source : e.render = "a * x^2" := by decide
  have parsed : parse 1024 e.render = .ok e := by
    have printed := printed_of_isPrintable (show e.isPrintable = true by decide)
    exact (printed.whole (Nat.le_refl _)).parse_eq_ok (by decide) (by decide)
  have symbolic : e.differentiate {} Scope.root "x" = .ok (.symbolic "a * 2x") := by decide +kernel
  have derived : (⟨{}, Scope.root.child, "x"⟩ : Setting).derive false 0 e = .ok d := by
    decide +kernel
  have text : d.annotate.render = "a * 2x" := by decide
  have read : d.annotate.form.tree =
      .binary .multiply (.binary .multiply (plain "a") (.number .two)) (plain "x") := by
        decide +kernel
  have exact : d.EvaluatesExactly {} 1025 (fun _ _ _ _ => True) bound most := by
    refine ⟨most, one, rfl, ⟨.two, half, rfl, rfl, .of_mul? ?_ ?_, trivial⟩, .of_mul? ?_ ?_,
      trivial⟩ <;> decide +kernel
  rw [← text] at symbolic ⊢
  rw [← source]
  refine not_textMeansDerivative parsed symbolic derived (by decide) (by decide) exact (by decide)
    (by decide) fun w evaluated => ?_
  rw [read] at evaluated
  obtain ⟨l, r, front, _, _⟩ := evalWithin_binary_eq_ok.1 evaluated
  obtain ⟨first, second, isFirst, isSecond, product⟩ := evalWithin_binary_eq_ok.1 front
  cases isFirst
  cases isSecond
  have overflow : (Value.number most).combine .multiply (.number .two) =
      .error (.arithmetic .multiplicationOverflow) := by decide +kernel
  cases overflow.symm.trans product

/-- The tree that is read may have more levels than the source has. -/
theorem text_of_reciprocal_is_deeper :
    ¬TextMeansDerivative (Settings.withMaxDepth {} 2) Scope.root "1 / x" "x" "-1 / x^2" := by
  let settings : Settings := Settings.withMaxDepth {} 2
  let d : Expr := .binary .divide (.number .negOne) (.binary .power (plain "x") (.number .two))
  let e : Expr := .binary .divide (.number .one) (plain "x")
  have source : Decimal.one.text ++ infixText .divide ++ "x" = "1 / x" := by decide
  have parsed : parse 2 "1 / x" = .ok e := by
    have number : Grammar.Writes 0 3 Decimal.one.text (.number .one) false :=
      (Grammar.writes_number 0 rfl).loosen (by decide) (Nat.le_refl 5)
    have name : Grammar.Writes 0 4 "x" (plain "x") false :=
      (Grammar.writes_name 0 (by decide)).loosen (by decide) (Nat.le_refl 5)
    have written : Grammar.Writes 0 3 (Decimal.one.text ++ infixText .divide ++ "x") e false :=
      .joined rfl (tail_infixText .divide) nofun number name
    rw [source] at written
    exact (written.whole (by decide) (by decide)).parse_eq_ok (by decide) (by decide)
  have symbolic : e.differentiate settings Scope.root "x" = .ok (.symbolic "-1 / x^2") := by
    decide +kernel
  have text : d.annotate.render = "-1 / x^2" := by decide
  intro claim
  obtain ⟨_, result, _, accepted, _⟩ := claim e parsed symbolic
  have high : parse 16 d.annotate.render = .ok d.annotate.form.tree :=
    parse_render_of_readsBack (by decide) (by decide) (by decide) (by decide)
  have same := Grammar.parse_eq_ok_of_le accepted (show 2 ≤ 16 by decide)
  rw [← text, high] at same
  cases same
  exact absurd (Grammar.height_le_of_parse accepted) (by decide)

/-- The text of a derivative may mean something else, for three reasons: coefficients are rounded,
products are read in other groups, and the text may be nested more deeply than the limit allows. -/
theorem text_of_derivative_may_differ :
    ¬TextMeansDerivative {} Scope.root "x * (0.000000000000001 * (0.000000000000001 * y))" "x"
        "0y" ∧
      ¬TextMeansDerivative {} Scope.root "a * x^2" "x" "a * 2x" ∧
      ¬TextMeansDerivative (Settings.withMaxDepth {} 2) Scope.root "1 / x" "x" "-1 / x^2" :=
  ⟨text_of_tiny_product_rounds, text_of_large_product_overflows, text_of_reciprocal_is_deeper⟩

end Expr

end Reckon
