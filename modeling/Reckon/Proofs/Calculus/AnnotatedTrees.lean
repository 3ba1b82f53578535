import Reckon.Proofs.Calculus.Regrouping
import Reckon.Proofs.Evaluation.Demands
import Reckon.Proofs.Syntax.Parts

/-!
# Folded trees keep their meaning

A variable with a monomial is evaluated as a coefficient times a power, where the tree that was
folded has products of its own. Numbers are then multiplied in other groups, so the results are the
same numbers as long as no product rounds, but they may differ in scale. What follows in the tree
keeps to the values; powers with a fraction or a large exponent and native functions have to.
-/

namespace Reckon

open Decimal (Equals)
open Value (Akin akin_refl)

/-! ## What a variable carries -/

/-- The first power is the number itself. -/
theorem Decimal.exists_power_one (x : Decimal) :
    ∃ p : Decimal, x.power .one = .ok p ∧ p.toRat = x.toRat := by
  have first : ∃ p : Decimal, x.pow? 1 = some p ∧ p.toRat = x.toRat := by
    simp only [pow?, one_ne_zero, if_false, if_true]
    split
    · next zero => exact ⟨.zero, rfl, toRat_zero.trans (toRat_of_isZero zero).symm⟩
    · split
      · next unit => exact ⟨.one, rfl, (same_iff.1 unit).symm⟩
      · exact ⟨x, rfl, rfl⟩
  obtain ⟨p, power, same⟩ := first
  exact ⟨p, power_natural (by omega) power _ _, same⟩

namespace Scope

variable {s s' : Scope} {name : String}

/-- The power of what a name is bound to, without its scale; none if that is no number. -/
def PowerIs (binding : Option Value) (exponent : Decimal) : Option ℚ → Prop
  | some q => ∃ x p : Decimal, binding = some (.number x) ∧ x.power exponent = .ok p ∧ p.toRat = q
  | none => ∀ x, binding ≠ some (.number x)

/-- The value is the monomial of the name, not rounded. -/
def Carries (s : Scope) (name : String) (term : Monomial) (w : Value) : Prop :=
  ∃ q, PowerIs (s.binding? name) term.exponent q ∧ w.rat? = q.map (term.coefficient.toRat * ·)

/-- A variable without a monomial has a number as its value exactly when the number is bound to it.
-/
theorem valueOf_eq_number {d : Decimal} :
    s.valueOf name none = .ok (.number d) ↔ s.binding? name = some (.number d) := by
  unfold valueOf
  cases s.binding? name with
  | none => exact ⟨nofun, nofun⟩
  | some v => exact ⟨fun h => congrArg some (Except.ok.inj h), fun h => by cases h; rfl⟩

/-- A number in front of a monomial is multiplied into its coefficient. -/
theorem Carries.scaled {term : Monomial} {r w : Value} (h : s.Carries name term r)
    {c coefficient : Decimal} (exact : c.MultipliesExactly term.coefficient)
    (factor : c.mul? term.coefficient = some coefficient)
    (product : w.rat? = r.rat?.map (c.toRat * ·)) :
    s.Carries name ⟨coefficient, term.exponent⟩ w := by
  obtain ⟨q, power, same⟩ := h
  refine ⟨q, power, ?_⟩
  rw [product, same, Option.map_map, exact coefficient factor]
  congr 1
  funext x
  exact (mul_assoc _ _ _).symm

/-- A variable evaluates to what it carries. -/
theorem Carries.exists_valueOf {term : Monomial} {w : Value} (h : s.Carries name term w) :
    ∃ w', s.valueOf name (some term) = .ok w' ∧ Akin Equals w w' := by
  obtain ⟨q, power, same⟩ := h
  unfold valueOf
  cases q with
  | none =>
    have text : ∀ text, Akin Equals w (.symbolic text) := fun text => Value.akin_iff.2 same.symm
    cases bound : s.binding? name with
    | none => exact ⟨_, rfl, text _⟩
    | some v =>
      cases v with
      | number x => exact absurd bound (power x)
      | symbolic inner => exact ⟨_, rfl, text _⟩
  | some q =>
    obtain ⟨x, p, bound, isPower, rfl⟩ := power
    cases w with
    | symbolic text => cases same
    | number d =>
      obtain ⟨z, product, equal⟩ := Decimal.exists_mul?_of_toRat_eq (Option.some.inj same)
      refine ⟨.number z, ?_, .number equal⟩
      rw [bound]
      dsimp only
      rw [Monomial.apply_number]
      have applied : Operator.multiply.apply term.coefficient p = .ok z :=
        Decimal.orProblem_eq_ok.2 product
      exact bind_eq_ok.2 ⟨p, isPower, bind_eq_ok.2 ⟨z, applied, rfl⟩⟩

/-- A variable has akin values in scopes whose bindings are akin. -/
theorem Corresponds.extends_valueOf (scopes : s.Corresponds (Akin Equals) s') (name : String) :
    Extends (Akin Equals) (s.valueOf name none) (s'.valueOf name none) := by
  have bindings := scopes.bindings name
  unfold valueOf
  generalize s.binding? name = x at bindings
  generalize s'.binding? name = x' at bindings
  cases bindings with
  | none => exact (lifts_extends Eq).ok (.symbolic name name)
  | some same => exact (lifts_extends Eq).ok same

/-- In scopes with equal numbers, the value of a variable in the one is carried in the other. -/
theorem Corresponds.carries (scopes : s.Corresponds (Akin Equals) s') {settings : Settings}
    {levels : Nat} {term : Option Monomial} {w : Value}
    (meets : Expr.Meets (.exactByValue settings) settings (levels + 1) s (.variable name term))
    (value : s.valueOf name term = .ok w) : s'.Carries name (Expr.carried term) w := by
  have bindings := scopes.bindings name
  unfold valueOf at value
  rw [Carries]
  rw [Expr.Meets] at meets
  generalize s.binding? name = x at bindings value meets
  generalize s'.binding? name = x' at bindings
  cases bindings with
  | none =>
    refine ⟨none, fun x bound => ?_, ?_⟩
    · cases bound
    · cases term <;> cases value <;> rfl
  | some same =>
    cases same with
    | symbolic text text' =>
      refine ⟨none, fun x bound => ?_, ?_⟩
      · cases bound
      · cases term <;> cases value <;> rfl
    | @number d d' equal =>
      cases term with
      | none =>
        cases value
        obtain ⟨p, isPower, first⟩ := d'.exists_power_one
        refine ⟨some p.toRat, ⟨d', p, rfl, isPower, rfl⟩, ?_⟩
        rw [Expr.carried, Option.getD_none, Decimal.toRat_one, Option.map_some, one_mul, first,
          equal, Value.rat?]
      | some t =>
        obtain ⟨power, product⟩ := meets t d rfl rfl
        dsimp only at value
        rw [Monomial.apply_number] at value
        obtain ⟨p, isPower, afterPower⟩ := bind_eq_ok.1 value
        obtain ⟨v, isProduct, result⟩ := bind_eq_ok.1 afterPower
        cases result
        obtain ⟨p', isPower', same⟩ :=
          Demands.powerByValue_of_operation power d' t.exponent equal rfl p isPower
        refine ⟨some p'.toRat, ⟨d', p', rfl, isPower', rfl⟩, ?_⟩
        have exact := product p isPower v (Decimal.orProblem_eq_ok.1 isProduct)
        rw [Expr.carried, Option.getD_some, Option.map_some, same, Value.rat?, exact]

end Scope

namespace Expr

/-! ## Folding, operation by operation -/

/-- Whether the operands of a product fold with a coefficient that is rounded. -/
def roundsCoefficient : Expr → Bool
  | .binary .multiply left right =>
    match left.annotate, right.annotate with
    | .number c, .variable _ term => !decide (c.MultipliesExactly (carried term).coefficient)
    | .variable _ term, .number c => !decide (c.MultipliesExactly (carried term).coefficient)
    | _, _ => false
  | _ => false

/-- A product that rounds no coefficient folds its factors exactly. -/
theorem mergesExactly_of_roundsCoefficient {left right : Expr}
    (h : (Expr.binary .multiply left right).roundsCoefficient = false) :
    MergesExactly left.annotate right.annotate := by
  rintro c name term (⟨number, isTerm⟩ | ⟨isTerm, number⟩)
  all_goals
    obtain ⟨written, isVariable, rfl⟩ := termOf?_eq_some.1 isTerm
    simpa only [roundsCoefficient, number, isVariable, Bool.not_eq_false', decide_eq_true_eq]
      using h

/-- The second tree is the first one with some operations folded, no coefficient rounded. -/
inductive FoldsTo : Expr → Expr → Prop where
  | number (d : Decimal) : FoldsTo (.number d) (.number d)
  | variable (name : String) (term : Option Monomial) :
      FoldsTo (.variable name term) (.variable name term)
  | signed (sign : Sign) {e e' : Expr} (operand : FoldsTo e e') :
      FoldsTo (.signed sign e) (.signed sign e')
  | binary (op : Operator) {left left' right right' : Expr} (onLeft : FoldsTo left left')
      (onRight : FoldsTo right right') : FoldsTo (.binary op left right) (.binary op left' right')
  | folded {op : Operator} {left left' right right' e : Expr} (onLeft : FoldsTo left left')
      (onRight : FoldsTo right right') (folds : Folds op left' right' e)
      (merges : op = .multiply → MergesExactly left' right') : FoldsTo (.binary op left right) e
  | call (name : String) {args args' : List Expr} (given : List.Forall₂ FoldsTo args args') :
      FoldsTo (.call name args) (.call name args')
  | other {e e' : Expr} (kind : e'.kind = e.kind)
      (noScalar : e.kind = .vector ∨ e.kind = .matrix ∨ e.kind = .definition) : FoldsTo e e'

/-- A variable folds to nothing but itself. -/
theorem FoldsTo.eq_of_variable {name : String} {term : Option Monomial} {e : Expr}
    (h : FoldsTo (.variable name term) e) : e = .variable name term := by
  cases h with
  | «variable» => rfl
  | other kind noScalar => simp [Expr.kind] at noScalar

mutual

/-- A tree folds to itself. -/
theorem foldsTo_refl : ∀ e : Expr, FoldsTo e e
  | .number d => .number d
  | .variable name term => .variable name term
  | .signed sign operand => .signed sign (foldsTo_refl operand)
  | .binary op left right => .binary op (foldsTo_refl left) (foldsTo_refl right)
  | .vector _ => .other rfl (.inl rfl)
  | .matrix _ => .other rfl (.inr (.inl rfl))
  | .definition _ _ _ => .other rfl (.inr (.inr rfl))
  | .call name args => .call name (forall₂_foldsTo_refl args)

/-- Some trees fold to themselves, one by one. -/
theorem forall₂_foldsTo_refl : ∀ es : List Expr, List.Forall₂ FoldsTo es es
  | [] => .nil
  | e :: es => .cons (foldsTo_refl e) (forall₂_foldsTo_refl es)

end

mutual

/-- A tree without a rounded coefficient folds to the annotated tree. -/
theorem foldsTo_annotate : ∀ {e : Expr}, e.hasPart roundsCoefficient = false → FoldsTo e e.annotate
  | .number d, _ => .number d
  | .variable name term, _ => .variable name term
  | .signed sign operand, h => .signed sign (foldsTo_annotate (Bool.or_eq_false_iff.1 h).2)
  | .binary op left right, h => by
    have own := eq_false_of_hasPart_eq_false h
    rw [hasPart, Bool.or_eq_false_iff, Bool.or_eq_false_iff] at h
    have onLeft := foldsTo_annotate h.1.2
    have onRight := foldsTo_annotate h.2
    rw [annotate]
    rcases foldBinary_cases op left.annotate right.annotate with ⟨-, kept⟩ | folds
    · rw [kept]
      exact .binary op onLeft onRight
    · refine .folded onLeft onRight folds fun times => ?_
      subst times
      exact mergesExactly_of_roundsCoefficient own
  | .vector _, _ => .other rfl (.inl rfl)
  | .matrix _, _ => .other rfl (.inr (.inl rfl))
  | .definition _ _ _, _ => .other rfl (.inr (.inr rfl))
  | .call name args, h => .call name (forall₂_foldsTo_annotateAll (Bool.or_eq_false_iff.1 h).2)

/-- Some trees without a rounded coefficient fold to the annotated ones. -/
theorem forall₂_foldsTo_annotateAll : ∀ {es : List Expr},
    anyHasPart roundsCoefficient es = false → List.Forall₂ FoldsTo es (annotateAll es)
  | [], _ => .nil
  | _ :: _, h =>
    .cons (foldsTo_annotate (Bool.or_eq_false_iff.1 h).1)
      (forall₂_foldsTo_annotateAll (Bool.or_eq_false_iff.1 h).2)

end

/-! ## Evaluating a folded tree -/

/-- The tree evaluates to a value that is akin to the given one, which a variable carries. -/
structure Follows (settings : Settings) (levels : Nat) (s : Scope) (e : Expr) (w : Value) :
    Prop where
  value : ∃ w', evalWithin settings levels s e = .ok w' ∧ Akin Equals w w'
  carries : ∀ name term, e = .variable name term → s.Carries name (carried term) w

section

variable {settings : Settings} {levels : Nat} {s s' : Scope}

/-- A variable follows the monomial that it carries. -/
theorem follows_of_carries {name : String} {term : Monomial} {w : Value}
    (h : s.Carries name term w) :
    Follows settings (levels + 1) s (.variable name (some term)) w where
  value := by
    rw [evalWithin_variable]
    exact h.exists_valueOf
  carries name' term' same := by
    cases same
    exact h

/-- What a number follows has the value of that number. -/
theorem Follows.number {d : Decimal} {w : Value} (h : Follows settings levels s (.number d) w) :
    w.rat? = some d.toRat := by
  obtain ⟨w', value, akin⟩ := h.value
  cases levels with
  | zero => exact absurd value evalWithin_zero_ne_ok
  | succ levels =>
    rw [evalWithin_number_eq_ok] at value
    subst value
    exact (Value.akin_iff.1 akin).symm

variable {op : Operator} {left right folded : Expr} {l r w : Value}

/-- Two operands that fold give a monomial with the value of the operation. -/
theorem Follows.fold (onLeft : Follows settings levels s left l)
    (onRight : Follows settings levels s right r) (folds : Folds op left right folded)
    (merges : op = .multiply → MergesExactly left right)
    (asked : ∀ a b, l = .number a → r = .number b →
      (Demands.exactByValue settings).Operation a b op) (value : l.combine op r = .ok w) :
    Follows settings (levels + 1) s folded w := by
  cases folds with
  | @scaledRight c coefficient name term product =>
    have exact := merges rfl c name _ (.inl ⟨rfl, rfl⟩)
    refine follows_of_carries ((onRight.carries name term rfl).scaled exact product ?_)
    rw [Value.rat?_product value asked, onLeft.number, Option.map₂_coe_left]
  | @scaledLeft c coefficient name term product =>
    have exact := merges rfl c name _ (.inr ⟨rfl, rfl⟩)
    refine follows_of_carries ((onLeft.carries name term rfl).scaled exact product ?_)
    rw [Value.rat?_product value asked, onRight.number, Option.map₂_coe_right]
    simp only [mul_comm]
  | power name n =>
    obtain ⟨l', evaluated, akin⟩ := onLeft.value
    obtain ⟨below, rfl⟩ : ∃ below, levels = below + 1 :=
      Nat.exists_eq_succ_of_ne_zero fun zero => evalWithin_zero_ne_ok (zero ▸ evaluated)
    rw [evalWithin_variable] at evaluated
    refine follows_of_carries ?_
    cases akin with
    | symbolic text text' =>
      rw [Value.combine_symbolic_left] at value
      cases value
      refine ⟨none, fun x bound => ?_, rfl⟩
      rw [Scope.valueOf_eq_number.2 bound] at evaluated
      cases evaluated
    | @number a a' equalBase =>
      have isNumber := onRight.number
      cases r with
      | symbolic text => cases isNumber
      | number b =>
        have equalExponent : n.toRat = b.toRat := (Option.some.inj isNumber).symm
        obtain ⟨v, power, rfl⟩ := Value.combine_numbers_eq_ok.1 value
        obtain ⟨v', power', equal⟩ := Demands.powerByValue_of_operation (asked a b rfl rfl) a' n
          equalBase equalExponent v power
        refine ⟨some v'.toRat, ⟨a', v', Scope.valueOf_eq_number.1 evaluated, power', rfl⟩, ?_⟩
        rw [Option.map_some, Decimal.toRat_one, one_mul, equal, Value.rat?]

/-- Up to a number of levels, a folded tree follows what the tree evaluates to, in all scopes with
equal numbers. -/
def FollowedWithin (settings : Settings) (levels : Nat) : Prop :=
  ∀ ⦃s s' : Scope⦄ ⦃e e' : Expr⦄ ⦃w : Value⦄, s.Corresponds (Akin Equals) s' → FoldsTo e e' →
    e.Meets (.exactByValue settings) settings levels s →
    evalWithin settings levels s e = .ok w → Follows settings levels s' e' w

namespace FollowedWithin

variable {name : String} {args args' : List Expr}

/-- The values of a tree and of a folded one are akin. -/
theorem values (ih : FollowedWithin settings levels) (scopes : s.Corresponds (Akin Equals) s')
    {e e' : Expr} (folds : FoldsTo e e')
    (meets : e.Meets (.exactByValue settings) settings levels s) :
    Extends (Akin Equals) (evalWithin settings levels s e) (evalWithin settings levels s' e') :=
  fun _ value => (ih scopes folds meets value).value

/-- The values of arguments and of folded ones are akin. -/
theorem arguments (ih : FollowedWithin settings levels)
    (scopes : s.Corresponds (Akin Equals) s') (given : List.Forall₂ FoldsTo args args')
    (met : ∀ arg ∈ args, arg.Meets (.exactByValue settings) settings levels s) :
    List.Forall₂ (fun arg arg' => Extends (Akin Equals) (evalWithin settings levels s arg)
      (evalWithin settings levels s' arg')) args args' :=
  ((List.forall₂_and_left _ _).2 ⟨met, given⟩).imp
    fun _ _ each => ih.values scopes each.2 each.1

/-- A call of a user function with folded arguments evaluates its body in a scope with equal
numbers. -/
theorem user (ih : FollowedWithin settings levels) (scopes : s.Corresponds (Akin Equals) s')
    (given : List.Forall₂ FoldsTo args args')
    (meets : (Expr.call name args).Meets (.exactByValue settings) settings (levels + 1) s)
    {f : UserFunction} (found : s.functions.get? name = some f) :
    Extends (Akin Equals) (evalWithin settings (levels + 1) s (.call name args))
      (evalWithin settings (levels + 1) s' (.call name args')) := by
  have found' : s'.functions.get? name = some f := by rw [scopes.functions, found]
  obtain ⟨onArgs, onBody⟩ := meets.user found
  refine (lifts_extends fun _ _ => True).user (fun _ => trivial) found found'
    (ih.arguments scopes given onArgs) fun values values' evaluated same => ?_
  exact ih.values (scopes.call (akin_refl fun _ => rfl) f.params same) (foldsTo_refl f.body)
    (onBody values evaluated)

/-- The samples of an integral with a folded integrand are equal at equal points. -/
theorem integrateWith (ih : FollowedWithin settings levels)
    (scopes : s.Corresponds (Akin Equals) s') {body body' : Expr} (onBody : FoldsTo body body')
    {target : String} {low high low' high' : Decimal} (sameLow : Equals low low')
    (sameHigh : Equals high high')
    (meets : ∀ x ∈ samplePoints low high defaultIntervals,
      body.Meets (.exactByValue settings) settings levels (s.inherit.bind target (.number x))) :
    Extends Equals
      (Expr.integrateWith (fun inner => evalWithin settings levels inner body) s target low high)
      (Expr.integrateWith (fun inner => evalWithin settings levels inner body') s' target low'
        high') := by
  have lifts := lifts_extends fun _ _ => True
  rw [integrateWith_eq, integrateWith_eq]
  refine lifts.simpson (fun _ => trivial) keptByArithmetic_equals (fun x inside x' point => ?_)
    sameLow sameHigh
  have sampled := scopes.sample (akin_refl fun _ => rfl) target (.number point)
  refine lifts.bind (ih.values sampled onBody (meets x inside)) fun y y' _ _ sample => ?_
  exact Value.extends_expectNumber _ sample

/-- An integral with folded arguments has equal bounds and equal samples. -/
theorem integral (ih : FollowedWithin settings levels) (scopes : s.Corresponds (Akin Equals) s')
    (given : List.Forall₂ FoldsTo args args')
    (meets : (Expr.call integralName args).Meets (.exactByValue settings) settings (levels + 1) s)
    (free : s.functions.get? integralName = none) :
    Extends (Akin Equals) (evalWithin settings (levels + 1) s (.call integralName args))
      (evalWithin settings (levels + 1) s' (.call integralName args')) := by
  intro w value
  have free' : s'.functions.get? integralName = none := by rw [scopes.functions, free]
  rw [evalWithin_integral free, integralForm_eq_ok] at value
  obtain ⟨body, target, lower, upper, low, high, area, rfl, atLower, atUpper, found, rfl⟩ := value
  obtain ⟨body', lower', upper', rfl, onBody, onLower, onUpper⟩ :=
    forall₂_integral (fun _ => FoldsTo.eq_of_variable) given
  obtain ⟨meetsLower, meetsUpper, meetsBody⟩ := meets.integral free
  obtain ⟨_, atLower', sameLow⟩ := ih.values scopes onLower meetsLower _ atLower
  obtain ⟨_, atUpper', sameHigh⟩ := ih.values scopes onUpper meetsUpper _ atUpper
  cases sameLow with
  | @number _ low' sameLow =>
    cases sameHigh with
    | @number _ high' sameHigh =>
      obtain ⟨area', found', same⟩ := ih.integrateWith scopes onBody sameLow sameHigh
        (meetsBody low high atLower atUpper) area found
      refine ⟨_, ?_, .number same⟩
      rw [evalWithin_integral free', integralForm_eq_ok]
      exact ⟨body', target, lower', upper', low', high', area', rfl, atLower', atUpper', found',
        rfl⟩

/-- A call of a native function with folded arguments has equal numbers for it. -/
theorem native (ih : FollowedWithin settings levels) (scopes : s.Corresponds (Akin Equals) s')
    (given : List.Forall₂ FoldsTo args args')
    (meets : (Expr.call name args).Meets (.exactByValue settings) settings (levels + 1) s)
    (free : s.functions.get? name = none) (other : name ≠ integralName) :
    Extends (Akin Equals) (evalWithin settings (levels + 1) s (.call name args))
      (evalWithin settings (levels + 1) s' (.call name args')) := by
  have free' : s'.functions.get? name = none := by rw [scopes.functions, free]
  obtain ⟨onArgs, onNative⟩ := meets.native free other
  refine (lifts_extends fun _ _ => True).native (fun _ => trivial) free free' other
    (by rw [scopes.natives]) (ih.arguments scopes given onArgs)
    fun native values values' known evaluated same => ?_
  refine Value.extends_callNative same fun numbers isNumbers => ?_
  exact onNative native numbers known (isNumbers ▸ evaluated)

/-- A call with folded arguments. -/
theorem call (ih : FollowedWithin settings levels) (scopes : s.Corresponds (Akin Equals) s')
    (given : List.Forall₂ FoldsTo args args')
    (meets : (Expr.call name args).Meets (.exactByValue settings) settings (levels + 1) s) :
    Extends (Akin Equals) (evalWithin settings (levels + 1) s (.call name args))
      (evalWithin settings (levels + 1) s' (.call name args')) := by
  cases user : s.functions.get? name with
  | some f => exact ih.user scopes given meets user
  | none =>
    by_cases integral : name = integralName
    · subst integral
      exact ih.integral scopes given meets user
    · exact ih.native scopes given meets user integral

end FollowedWithin

/-- What a tree evaluates to, a folded tree follows in scopes with equal numbers. -/
theorem follows_of_foldsTo : FollowedWithin settings levels := by
  intro s s' e e' w scopes folds meets value
  -- The induction is on the levels: bodies of functions and integrands have scopes of their own.
  induction levels generalizing s s' e e' w with
  | zero => exact absurd value evalWithin_zero_ne_ok
  | succ levels ih =>
    have within : FollowedWithin settings levels := ih
    cases folds with
    | number d =>
      rw [evalWithin_number_eq_ok] at value
      subst value
      exact ⟨⟨_, rfl, .number rfl⟩, nofun⟩
    | «variable» name term =>
      rw [evalWithin_variable] at value
      have carries := scopes.carries meets value
      cases term with
      | some t => exact follows_of_carries carries
      | none =>
        refine ⟨by rw [evalWithin_variable]; exact scopes.extends_valueOf name w value, ?_⟩
        intro name' term' same
        cases same
        exact carries
    | signed sign operand =>
      obtain ⟨v, inner, rfl⟩ := evalWithin_signed_eq_ok.1 value
      obtain ⟨v', inner', akin⟩ := (ih scopes operand meets inner).value
      exact ⟨⟨_, evalWithin_signed_eq_ok.2 ⟨v', inner', rfl⟩, akin.withSign sign⟩, nofun⟩
    | binary op onLeft onRight =>
      obtain ⟨meetsLeft, meetsRight, asked⟩ := meets
      refine ⟨(lifts_extends fun _ _ => True).binary (within.values scopes onLeft meetsLeft)
        (within.values scopes onRight meetsRight)
        (fun l r l' r' atLeft atRight sameLeft sameRight => ?_) w value, nofun⟩
      refine Value.extends_combine sameLeft sameRight fun a b isBase isExponent isPower => ?_
      subst isBase isExponent isPower
      exact Demands.powerByValue_of_operation (asked a b atLeft atRight)
    | folded onLeft onRight folds merges =>
      obtain ⟨meetsLeft, meetsRight, asked⟩ := meets
      obtain ⟨l, r, atLeft, atRight, combined⟩ := evalWithin_binary_eq_ok.1 value
      refine (ih scopes onLeft meetsLeft atLeft).fold (ih scopes onRight meetsRight atRight) folds
        merges (fun a b isLeft isRight => ?_) combined
      exact asked a b (isLeft ▸ atLeft) (isRight ▸ atRight)
    | other kind noScalar =>
      rw [evalWithin_not_scalar noScalar] at value
      cases value
    | call name given => exact ⟨within.call scopes given meets w value, nofun⟩

end

/-! ## The whole tree -/

/-- Folding the monomials of a tree keeps its names, makes it no taller and leaves nothing to fold.
In every scope under all settings in which the tree evaluates to a number, the folded tree evaluates
to that number, possibly with another scale, if no product rounds, neither in the evaluation of the
tree nor in a coefficient, and if the powers and native calls that this evaluation takes do not tell
equal numbers of different scales apart. Powers with integer exponents below 1024 never do. -/
theorem annotate_keeps_meaning (e : Expr) :
    (∀ name, e.annotate.mentions name = e.mentions name) ∧ e.annotate.height ≤ e.height ∧
      e.annotate.annotate = e.annotate ∧
      ∀ (settings : Settings) (s : Scope) (v : Decimal), e.hasPart roundsCoefficient = false →
        e.Meets (.exactByValue settings) settings (settings.maxDepth + 1) s →
        e.eval settings s = .ok (.number v) →
          ∃ v', e.annotate.eval settings s = .ok (.number v') ∧ v'.toRat = v.toRat := by
  refine ⟨fun name => mentions_annotate name e, height_annotate_le e, annotate_annotate e, ?_⟩
  intro settings s v exact meets value
  have refl : ∀ v, Akin Equals v v := akin_refl fun _ => rfl
  have scopes := Scope.Corresponds.refl refl s
  obtain ⟨w, value', akin⟩ := (follows_of_foldsTo scopes (foldsTo_annotate exact) meets value).value
  cases akin with
  | number same => exact ⟨_, value', same⟩

/-- Two numbers around a power are multiplied into one coefficient. -/
theorem annotate_keeps_meaning_nested :
    let half : Decimal := ⟨false, 5, 1, by decide, by decide⟩
    let square : Expr := .binary .power (plain "x") (.number .two)
    let tree : Expr := .binary .multiply (.number .two) (.binary .multiply square (.number half))
    let s := Scope.root.bind "x" (.number ⟨false, 15, 1, by decide, by decide⟩)
    tree.hasPart roundsCoefficient = false ∧ tree.Meets (.exactByValue {}) {} 1025 s ∧
      tree.eval {} s = .ok (.number ⟨false, 2250, 3, by decide, by decide⟩) ∧
      ∃ v', tree.annotate.eval {} s = .ok (.number v') ∧ v'.toRat = 9 / 4 := by
  intro half square tree s
  let nine : Decimal := ⟨false, 225, 2, by decide, by decide⟩
  let product : Decimal := ⟨false, 1125, 3, by decide, by decide⟩
  have exact : tree.hasPart roundsCoefficient = false := by decide +kernel
  have atSquare : square.evalWithin {} 1023 s = .ok (.number nine) := by decide +kernel
  have atProduct : (Expr.binary .multiply square (.number half)).evalWithin {} 1024 s =
      .ok (.number product) := by decide +kernel
  have value : tree.eval {} s = .ok (.number ⟨false, 2250, 3, by decide, by decide⟩) := by
    decide +kernel
  have onSquare : square.Meets (.exactByValue {}) {} 1023 s := by
    have onName : (plain "x").Meets (.exactByValue {}) {} 1022 s := by
      intro term x written
      cases written
    refine ⟨onName, trivial, fun a b _ exponent small => ?_⟩
    cases evalWithin_number_eq_ok.1 exponent
    exact absurd small (by decide)
  have onProduct : (Expr.binary .multiply square (.number half)).Meets (.exactByValue {}) {} 1024
      s := by
    refine ⟨onSquare, trivial, fun a b first second => ?_⟩
    cases first.symm.trans atSquare
    cases evalWithin_number_eq_ok.1 second
    have times : nine.MultipliesExactly half := by decide +kernel
    exact times
  have meets : tree.Meets (.exactByValue {}) {} 1025 s := by
    refine ⟨trivial, onProduct, fun a b first second => ?_⟩
    cases evalWithin_number_eq_ok.1 first
    cases second.symm.trans atProduct
    have times : Decimal.two.MultipliesExactly product := by decide +kernel
    exact times
  obtain ⟨-, -, -, keeps⟩ := annotate_keeps_meaning tree
  obtain ⟨v', value', same⟩ := keeps {} s _ exact meets value
  exact ⟨exact, meets, value, v', value', same.trans (by decide +kernel)⟩

/-- Where no product of the tree or of the folded tree rounds, both have the same value. -/
def KeepsValueFolded (e : Expr) : Prop :=
  ∀ (settings : Settings) (s : Scope) (v : Decimal), e.hasPart roundsCoefficient = false →
    e.Meets .exactProducts settings (settings.maxDepth + 1) s →
    e.annotate.Meets .exactProducts settings (settings.maxDepth + 1) s →
    e.eval settings s = .ok (.number v) →
      ∃ v', e.annotate.eval settings s = .ok (.number v') ∧ v'.toRat = v.toRat

/-- A tree and its folded form with different values, all of whose products are exact, do not keep
the value. -/
theorem not_keepsValueFolded {e folded : Expr} {settings : Settings} {s : Scope} {v w : Decimal}
    (isFolded : e.annotate = folded) (exact : e.hasPart roundsCoefficient = false)
    (meets : e.Meets .exactProducts settings (settings.maxDepth + 1) s)
    (meetsFolded : folded.Meets .exactProducts settings (settings.maxDepth + 1) s)
    (value : e.eval settings s = .ok (.number v))
    (valueFolded : folded.eval settings s = .ok (.number w)) (differ : w.same v = false) :
    ¬KeepsValueFolded e := by
  intro keeps
  subst isFolded
  obtain ⟨v', value', same⟩ := keeps settings s v exact meets meetsFolded value
  cases value'.symm.trans valueFolded
  rw [Decimal.same_iff.2 same] at differ
  cases differ

/-- A coefficient leaves out a zero at the end of a factor, and for a power with a large exponent it
counts. -/
theorem annotate_may_differ :
    let c : Decimal := ⟨false, 100572, 5, by decide, by decide⟩
    let exponent : Decimal := ⟨false, 1026, 0, by decide, by decide⟩
    ¬KeepsValueFolded (.binary .power (.binary .multiply (.number c) (plain "x"))
      (.number exponent)) := by
  intro c exponent
  let x : Decimal := ⟨false, 10, 1, by decide, by decide⟩
  let base : Decimal := ⟨false, 1005720, 6, by decide, by decide⟩
  let factors : Expr := .binary .multiply (.number c) (plain "x")
  let folded : Expr := .variable "x" (some ⟨c, .one⟩)
  let s := Scope.root.bind "x" (.number x)
  have isBound : s.binding? "x" = some (.number x) := by decide +kernel
  have atName : (plain "x").evalWithin {} 1023 s = .ok (.number x) := by decide +kernel
  have first : x.power .one = .ok .one := by decide +kernel
  have onFactors : factors.Meets .exactProducts {} 1024 s := by
    have onName : (plain "x").Meets .exactProducts {} 1023 s := by
      intro term x' written
      cases written
    refine ⟨trivial, onName, fun a b isLeft isRight => ?_⟩
    cases evalWithin_number_eq_ok.1 isLeft
    cases isRight.symm.trans atName
    have times : c.MultipliesExactly x := by decide +kernel
    exact times
  have onFolded : folded.Meets .exactProducts {} 1024 s := by
    intro term x' written bound
    cases written
    cases bound.symm.trans isBound
    refine ⟨fun _ => trivial, fun p isPower => ?_⟩
    cases isPower.symm.trans first
    have times : c.MultipliesExactly .one := by decide +kernel
    exact times
  have onPower : ∀ {e : Expr}, e.Meets .exactProducts {} 1024 s →
      (Expr.binary .power e (.number exponent)).Meets .exactProducts {} 1025 s :=
    fun operand => ⟨operand, trivial, fun _ _ _ _ _ => trivial⟩
  have value : ∀ {e : Expr} {d v : Decimal}, e.evalWithin {} 1024 s = .ok (.number d) →
      d.pow? 1026 = some v →
        (Expr.binary .power e (.number exponent)).eval {} s = .ok (.number v) := by
    intro e d v operand powered
    have applied : d.power exponent = .ok v := Decimal.power_natural (by omega) powered _ _
    exact evalWithin_binary_eq_ok.2 ⟨.number d, .number exponent, operand, rfl,
      Value.combine_eq_number.2 ⟨d, exponent, rfl, rfl, applied⟩⟩
  obtain ⟨v, w, ofTree, ofFolded, differ⟩ : ∃ v w : Decimal, base.pow? 1026 = some v ∧
      c.pow? 1026 = some w ∧ w.same v = false :=
    ⟨⟨false, 34792926322274377744223599598, 26, by decide, by decide⟩,
      ⟨false, 34792926322274377744223599599, 26, by decide, by decide⟩, by decide +kernel,
      by decide +kernel, by decide⟩
  have isFolded : (Expr.binary .power factors (.number exponent)).annotate =
      .binary .power folded (.number exponent) := by decide +kernel
  have original : factors.evalWithin {} 1024 s = .ok (.number base) := by decide +kernel
  have again : folded.evalWithin {} 1024 s = .ok (.number c) := by decide +kernel
  exact not_keepsValueFolded isFolded (by decide +kernel) (onPower onFactors) (onPower onFolded)
    (value original ofTree) (value again ofFolded) differ

end Expr

end Reckon
