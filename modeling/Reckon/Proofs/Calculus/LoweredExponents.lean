import Reckon.Proofs.Calculus.FormalDerivative
import Reckon.Proofs.Decimal.Nearest
import Reckon.Proofs.Evaluation.Faults
import Reckon.Proofs.Session.Store

/-!
# Exponents that cannot be lowered

Differentiation takes one from an exponent without asking whether there is room. There is, for every
number but the least one. So the subtraction leaves the range only where a power of the variable, or
a variable that carries a monomial, has the least number as its exponent; then there is no derivative,
and everything else that can go wrong is reported.
-/

namespace Reckon

/-! ## The least number -/

namespace Decimal

/-- The least number. -/
def least : Decimal :=
  ⟨true, 2 ^ 96 - 1, 0, by decide, zero.scale_le⟩

/-- One less than a number rounds to an integer in range, unless the number is the least one. -/
theorem roundHalfEven_signed_sub_lt {n : Decimal} (other : n ≠ least) :
    roundHalfEven (n.signed - 10 ^ n.scale).natAbs (10 ^ n.scale) < 2 ^ 96 := by
  have room := n.mantissa_lt
  have magnitude := n.signed_natAbs
  by_cases whole : n.scale = 0
  · rw [whole, pow_zero, pow_zero, roundHalfEven_one]
    by_contra full
    have sign : n.negative = true := by
      by_contra positive
      have same : n.signed = n.mantissa := by rw [signed, if_neg positive]
      omega
    have most : n.mantissa = 2 ^ 96 - 1 := by omega
    cases n
    cases sign
    cases most
    cases whole
    exact other rfl
  · -- With places behind the point the number is ten times smaller than there is room for.
    have ten : 10 ≤ 10 ^ n.scale := Nat.le_self_pow whole 10
    have cast : (10 : Int) ^ n.scale = ((10 ^ n.scale : Nat) : Int) := by push_cast; rfl
    rw [cast]
    generalize 10 ^ n.scale = unit at ten
    have near := (@roundHalfEven_near (n.signed - unit).natAbs unit (by omega)).2
    have bound : (n.signed - unit).natAbs ≤ n.mantissa + unit := by omega
    by_contra full
    have large := Nat.mul_le_mul_right unit (Nat.le_of_not_lt full)
    omega

/-- There is room for one less than any number but the least one. -/
theorem exists_sub?_one {n : Decimal} (other : n ≠ least) : ∃ lower, n.sub? .one = some lower := by
  have isOne : one.isZero = false := by decide
  have minusOne : one.neg.isZero = false := by decide
  have aligned : n.alignedTo n.scale + one.neg.alignedTo n.scale = n.signed - 10 ^ n.scale := by
    have unit : one.neg.alignedTo n.scale = -1 * 10 ^ n.scale := rfl
    rw [unit, alignedTo, Nat.sub_self, pow_zero, mul_one, neg_one_mul, sub_eq_add_neg]
  rw [sub?, isOne, if_neg Bool.false_ne_true, add?, minusOne, if_neg Bool.false_ne_true]
  split
  · exact ⟨_, rfl⟩
  · simp only [show max n.scale one.neg.scale = n.scale from Nat.max_zero _, aligned]
    exact exists_fit? _ (roundHalfEven_signed_sub_lt other) _

/-- There is no room for the least number less one. -/
theorem least_sub?_one : least.sub? .one = none := by
  decide

end Decimal

/-- The fault is one that is provided for: it is not a subtraction without room for its result. -/
def Fault.IsChecked (fault : Fault) : Prop :=
  fault ≠ .uncheckedSubtraction

/-- Every fault of evaluation is provided for. -/
theorem Fault.isChecked_of_isOfEvaluation (fault : Fault) (h : fault.IsOfEvaluation) :
    fault.IsChecked := by
  rintro rfl
  exact h

namespace Expr

/-- Lowering the least number is the subtraction that is not provided for. -/
theorem lessOne_least : lessOne .least = .error .uncheckedSubtraction := by
  rw [lessOne, Decimal.least_sub?_one]

/-- Every other number can be lowered. -/
theorem exists_lessOne {n : Decimal} (other : n ≠ .least) : ∃ lower, lessOne n = .ok lower := by
  obtain ⟨lower, room⟩ := Decimal.exists_sub?_one other
  exact ⟨lower, by rw [lessOne, room]⟩

namespace Setting

/-! ## Parts that are lowered -/

/-- An exponent that is the least number cannot be lowered. -/
theorem lowered_least : lowered (.number .least) = .error .uncheckedSubtraction := by
  rw [lowered, lessOne_least]
  rfl

/-- A part of the tree, below signs and operators, has an exponent that differentiation takes one
from, and this exponent is the least number. -/
inductive LowersLeast (s : Setting) : Expr → Prop where
  | monomial (coefficient : Decimal) :
      LowersLeast s (.variable s.variableName (some ⟨coefficient, .least⟩))
  | power {base exponent : Expr} : base.mentions s.variableName = true →
      exponent.mentions s.variableName = false → s.fold exponent = .ok (.number .least) →
      LowersLeast s (.binary .power base exponent)
  | signed {sign : Sign} {operand : Expr} : LowersLeast s operand →
      LowersLeast s (.signed sign operand)
  | left {op : Operator} {left right : Expr} : LowersLeast s left →
      LowersLeast s (.binary op left right)
  | right {op : Operator} {left right : Expr} : LowersLeast s right →
      LowersLeast s (.binary op left right)

variable {s : Setting} {e : Expr}

/-- A tree that lowers the least number mentions the variable. -/
theorem LowersLeast.mentions (h : s.LowersLeast e) : e.mentions s.variableName = true := by
  induction h with
  | monomial coefficient => exact beq_self_eq_true _
  | power depends _ _ => rw [Expr.mentions, depends, Bool.true_or]
  | signed _ ih => exact ih
  | left _ ih => rw [Expr.mentions, ih, Bool.true_or]
  | right _ ih => rw [Expr.mentions, ih, Bool.or_true]

/-- Where such a part is, there is no derivative. -/
theorem LowersLeast.derive_ne_ok (h : s.LowersLeast e) {belowMinus : Bool} {depth : Nat} {d : Expr} :
    s.derive belowMinus depth e ≠ .ok d := by
  intro derived
  induction h generalizing belowMinus depth d with
  | monomial coefficient =>
    have nonzero : ¬Decimal.least.isZero = true := by decide
    have step := step_of_derive derived
    rw [Step, deriveVariable, if_neg (not_not.2 rfl), if_neg nonzero] at step
    split at step
    · cases step
    · rw [lessOne_least] at step
      cases step
  | power depends free folded =>
    rcases step_of_derive derived with ⟨constant, _⟩ | ⟨_, n, m, b, df, kept, less, _⟩ | ⟨constant, _⟩
    · rw [depends] at constant
      cases constant
    · rw [folded] at kept
      cases kept
      rw [lowered_least] at less
      cases less
    · rw [depends] at constant
      cases constant
  | signed _ ih =>
    obtain ⟨inner, derivedInner, -⟩ := step_of_derive derived
    exact ih derivedInner
  | @left op left right part ih =>
    cases op with
    | add =>
      obtain ⟨df, dg, first, -⟩ := step_of_derive derived
      exact ih first
    | subtract =>
      obtain ⟨df, dg, first, -⟩ := step_of_derive derived
      exact ih first
    | multiply =>
      obtain ⟨f, g, df, dg, -, -, first, -⟩ := step_of_derive derived
      exact ih first
    | divide =>
      obtain ⟨f, g, df, -, -, first, -⟩ := step_of_derive derived
      exact ih first
    | power =>
      rcases step_of_derive derived with ⟨constant, _⟩ | ⟨_, n, m, b, df, _, _, _, inner, _⟩ |
        ⟨constant, _⟩
      · rw [part.mentions] at constant
        cases constant
      · exact ih inner
      · rw [part.mentions] at constant
        cases constant
    | _ => exact step_of_derive derived
  | @right op left right part ih =>
    cases op with
    | add =>
      obtain ⟨df, dg, -, second, -⟩ := step_of_derive derived
      exact ih second
    | subtract =>
      obtain ⟨df, dg, -, second, -⟩ := step_of_derive derived
      exact ih second
    | multiply =>
      obtain ⟨f, g, df, dg, -, -, -, second, -⟩ := step_of_derive derived
      exact ih second
    | divide =>
      obtain ⟨f, g, df, -, -, -, ⟨constant, -⟩ | ⟨-, dg, second, -⟩⟩ := step_of_derive derived
      · rw [part.mentions] at constant
        cases constant
      · exact ih second
    | power =>
      rcases step_of_derive derived with ⟨_, constant, _⟩ | ⟨constant, _⟩ |
        ⟨_, _, b, l, n, dg, _, _, _, inner, _⟩
      · rw [part.mentions] at constant
        cases constant
      · rw [part.mentions] at constant
        cases constant
      · exact ih inner
    | _ => exact step_of_derive derived

/-! ## What differentiation reports -/

/-- A fault that differentiation may end with: it is provided for, or a part of the tree lowers the
least number. -/
def Reports (s : Setting) (e : Expr) (fault : Fault) : Prop :=
  fault.IsChecked ∨ s.LowersLeast e

/-- Folding reports only faults that are provided for. -/
theorem failsWithin_fold (natives : s.scope.NativesFailWithin Fault.IsChecked) (e : Expr) :
    FailsWithin Fault.IsChecked (s.fold e) := by
  rw [fold_eq]
  refine (failsWithin_evalWithin Fault.isChecked_of_isOfEvaluation nofun natives e).bind ?_
  intro value
  cases value.rounded s.settings.precision <;> exact failsWithin_ok _

/-- The rule for exponentials reports only faults that are provided for. -/
theorem failsWithin_exponentialRule (natives : s.scope.NativesFailWithin Fault.IsChecked)
    (base exponent : Expr) : FailsWithin Fault.IsChecked (s.exponentialRule base exponent) := by
  have folds := failsWithin_fold natives
  exact (folds base).bind fun b => (folds (.call "ln" [b])).bind fun _ =>
    (folds exponent).bind fun _ => failsWithin_ok _

/-- Lowering an exponent other than the least number reports only faults that are provided for. -/
theorem failsWithin_lowered {n : Expr} (other : n ≠ .number .least) :
    FailsWithin Fault.IsChecked (lowered n) := by
  unfold lowered
  split
  · next d =>
    obtain ⟨lower, room⟩ := exists_lessOne fun same => other (congrArg _ same)
    rw [room]
    exact failsWithin_ok _
  · exact failsWithin_ok _

/-- The rule for powers only fails where it lowers the least number. -/
theorem failsWithin_powerRule (natives : s.scope.NativesFailWithin Fault.IsChecked)
    (base exponent : Expr) :
    FailsWithin (fun fault => fault.IsChecked ∨ s.fold exponent = .ok (.number .least))
      (s.powerRule base exponent) := by
  have folds : ∀ e, FailsWithin (fun fault => fault.IsChecked ∨
      s.fold exponent = .ok (.number .least)) (s.fold e) :=
    fun e => (failsWithin_fold natives e).mono fun _ => .inl
  rw [powerRule_eq]
  cases kept : s.fold exponent with
  | error fault => exact failsWithin_error (.inl (failsWithin_fold natives exponent fault kept))
  | ok n =>
    rw [kept] at folds
    refine FailsWithin.bind (f := fun m => s.fold base >>= fun b => .ok (times n (toThe b m))) ?_
      fun m => (folds base).bind fun b => failsWithin_ok _
    by_cases same : n = .number .least
    · exact fun _ _ => .inr (congrArg _ same)
    · exact (failsWithin_lowered same).mono fun _ => .inl

/-- The derivative of a variable only fails for a coefficient without room, or where it lowers the
least number. -/
theorem reports_deriveVariable (belowMinus : Bool) (name : String) (term : Option Monomial) :
    FailsWithin (s.Reports (.variable name term)) (s.deriveVariable belowMinus name term) := by
  unfold deriveVariable
  split
  · split <;> exact failsWithin_ok _
  · next term =>
    split
    · exact failsWithin_ok _
    · next own =>
      obtain rfl := not_not.1 own
      split
      · exact failsWithin_ok _
      · split
        · exact failsWithin_error (.inl nofun)
        · obtain ⟨coefficient, exponent⟩ := term
          by_cases least : exponent = .least
          · subst least
            exact fun _ _ => .inr (.monomial coefficient)
          · obtain ⟨lower, room⟩ := exists_lessOne least
            rw [room]
            exact failsWithin_ok _

/-- Whatever the derivative of a tree ends with is provided for, unless a part of the tree lowers the
least number. -/
theorem reports_derive (natives : s.scope.NativesFailWithin Fault.IsChecked) :
    ∀ (e : Expr) (belowMinus : Bool) (depth : Nat),
      FailsWithin (s.Reports e) (s.derive belowMinus depth e) := by
  intro e belowMinus depth
  unfold derive
  split
  · exact failsWithin_error (.inl (by rintro ⟨⟩))
  cases e with
  | number value => exact failsWithin_ok _
  | «variable» name term => exact reports_deriveVariable belowMinus name term
  | signed sign operand =>
    refine ((reports_derive natives operand _ _).mono fun _ => .imp_right .signed).bind fun _ => ?_
    split <;> exact failsWithin_ok _
  | binary op left right =>
    have folds : ∀ part, FailsWithin (s.Reports (.binary op left right)) (s.fold part) :=
      fun part => (failsWithin_fold natives part).mono fun _ => .inl
    have onLeft : FailsWithin (s.Reports (.binary op left right))
        (s.derive false (depth + 1) left) :=
      (reports_derive natives left _ _).mono fun _ => .imp_right .left
    have onRight : FailsWithin (s.Reports (.binary op left right))
        (s.derive false (depth + 1) right) :=
      (reports_derive natives right _ _).mono fun _ => .imp_right .right
    cases op with
    | add => exact onLeft.bind fun _ => onRight.bind fun _ => failsWithin_ok _
    | subtract => exact onLeft.bind fun _ => onRight.bind fun _ => failsWithin_ok _
    | multiply =>
      exact (folds left).bind fun _ => (folds right).bind fun _ => onLeft.bind fun _ =>
        onRight.bind fun _ => failsWithin_ok _
    | divide =>
      refine (folds left).bind fun _ => (folds right).bind fun _ => onLeft.bind fun _ => ?_
      split
      · exact failsWithin_ok _
      · exact onRight.bind fun _ => failsWithin_ok _
    | power =>
      dsimp only
      split
      · exact failsWithin_ok _
      · next depends free =>
        have rule : FailsWithin (s.Reports (.binary .power left right)) (s.powerRule left right) :=
          (failsWithin_powerRule natives left right).mono fun _ =>
            .imp_right (.power depends free)
        exact rule.bind fun _ => onLeft.bind fun _ => failsWithin_ok _
      · have rule : FailsWithin (s.Reports (.binary .power left right))
            (s.exponentialRule left right) :=
          (failsWithin_exponentialRule natives left right).mono fun _ => .inl
        exact rule.bind fun _ => onRight.bind fun _ => failsWithin_ok _
      · exact failsWithin_error (.inl (by rintro ⟨⟩))
    | _ => exact failsWithin_error (.inl (by rintro ⟨⟩))
  | call name args =>
    dsimp only
    split
    · exact failsWithin_error (.inl (by rintro ⟨⟩))
    · exact failsWithin_ok _
  | vector items => exact failsWithin_error (.inl (by rintro ⟨⟩))
  | matrix columns => exact failsWithin_error (.inl (by rintro ⟨⟩))
  | definition name params body => exact failsWithin_error (.inl (by rintro ⟨⟩))

/-- A power of the variable with the least number as its exponent has its exponent lowered before
anything else is done with it. -/
theorem derive_power_least {base exponent : Expr} (depends : base.mentions s.variableName = true)
    (free : exponent.mentions s.variableName = false)
    (folded : s.fold exponent = .ok (.number .least)) (belowMinus : Bool) :
    s.derive belowMinus 0 (.binary .power base exponent) = .error .uncheckedSubtraction := by
  have rule : s.powerRule base exponent = .error .uncheckedSubtraction := by
    rw [powerRule_eq, folded]
    exact congrArg (· >>= fun m => s.fold base >>= fun b => .ok (times (.number .least) (toThe b m)))
      lowered_least
  rw [derive, if_neg (Nat.not_lt_zero _), depends, free]
  dsimp only
  rw [rule]
  rfl

end Setting

/-- What the derivative of the tree fails with, differentiation fails with. -/
theorem differentiate_eq_error_of_derive {settings : Settings} {scope : Scope} {target : String}
    {e : Expr} {fault : Fault}
    (failed : (⟨settings, scope.child, target⟩ : Setting).derive false 0 e = .error fault) :
    e.differentiate settings scope target = .error fault := by
  rw [differentiate]
  dsimp only
  rw [failed]
  rfl

/-- Putting the derivative into a value adds no unchecked step. -/
theorem reports_differentiate {scope : Scope} (natives : scope.NativesFailWithin Fault.IsChecked)
    (settings : Settings) (target : String) (e : Expr) :
    FailsWithin ((⟨settings, scope.child, target⟩ : Setting).Reports e)
      (e.differentiate settings scope target) := by
  refine (Setting.reports_derive natives e false 0).bind fun d => ?_
  have value : FailsWithin Fault.IsChecked (d.eval settings scope.child) :=
    failsWithin_evalWithin Fault.isChecked_of_isOfEvaluation nofun (natives.call []) d
  refine (value.mono fun _ => .inl).bind fun w => ?_
  cases w <;> exact failsWithin_ok _

end Expr

namespace Session

/-- The derivative of a text is that of the tree that the text is parsed to. -/
theorem differentiate_of_parse {s : Session} {text : String} {parsed : Parsed}
    (accepted : (s.parse text).1 = .ok parsed) (target : String) :
    (s.differentiate text target).1 = s.differentiateTree target parsed.tree := by
  have kept : (s.parse text).2.settings = s.settings ∧ (s.parse text).2.scope = s.scope := by
    unfold parse
    split
    · exact ⟨rfl, rfl⟩
    · split <;> exact ⟨rfl, rfl⟩
  rw [differentiate, withTree]
  generalize s.parse text = outcome at accepted kept
  obtain ⟨result, after⟩ := outcome
  cases accepted
  change after.differentiateTree target parsed.tree = _
  rw [differentiateTree, differentiateTree, kept.1, kept.2]

end Session

/-- In every session whose native functions report no unchecked subtraction of their own, for every
variable: differentiating any tree, annotated or not, gives a value or a fault that is provided for,
unless a part of the tree has its exponent lowered and this exponent is the least number. Then there
is no value, and a power of the variable with this exponent does leave the range. An accepted text
is differentiated as its tree. -/
theorem overrun_only_at_least_exponent (s : Session) (target : String)
    (natives : s.scope.NativesFailWithin Fault.IsChecked) :
    let setting : Expr.Setting := ⟨s.settings, s.scope.child, target⟩
    (∀ e, s.differentiateTree target e = .error .uncheckedSubtraction → setting.LowersLeast e) ∧
    (∀ e, setting.LowersLeast e → ∃ fault, s.differentiateTree target e = .error fault) ∧
    (∀ base exponent, base.mentions target = true → exponent.mentions target = false →
      setting.fold exponent = .ok (.number .least) →
      s.differentiateTree target (.binary .power base exponent) = .error .uncheckedSubtraction) ∧
    ∀ text parsed, (s.parse text).1 = .ok parsed →
      (s.differentiate text target).1 = s.differentiateTree target parsed.tree := by
  intro setting
  refine ⟨fun e overrun => ?_, fun e lowers => ?_, fun base exponent depends free folded => ?_,
    fun text parsed accepted => Session.differentiate_of_parse accepted target⟩
  · rcases Expr.reports_differentiate natives s.settings target e _ overrun with checked | lowers
    · exact absurd rfl checked
    · exact lowers
  · cases derived : setting.derive false 0 e with
    | ok d => exact absurd derived lowers.derive_ne_ok
    | error fault => exact ⟨fault, Expr.differentiate_eq_error_of_derive derived⟩
  · exact Expr.differentiate_eq_error_of_derive
      (Expr.Setting.derive_power_least depends free folded false)

/-- In a new session a power with the least exponent overruns, and a sum with a monomial of that
exponent in it has no derivative. -/
theorem overrun_only_at_least_exponent_new :
    (Session.new {}).scope.NativesFailWithin Fault.IsChecked ∧
    (Session.new {}).differentiateTree "x" (.binary .power (.plain "x") (.number .least)) =
      .error .uncheckedSubtraction ∧
    ∃ fault, (Session.new {}).differentiateTree "x"
      (.binary .add (.plain "y") (.variable "x" (some ⟨.two, .least⟩))) = .error fault := by
  have natives : (Session.new {}).scope.NativesFailWithin Fault.IsChecked :=
    Scope.nativesFailWithin_root.mono Fault.isChecked_of_isOfEvaluation
  obtain ⟨-, refused, overruns, -⟩ := overrun_only_at_least_exponent (Session.new {}) "x" natives
  refine ⟨natives, ?_, refused _ (.right (.monomial .two))⟩
  exact overruns (.plain "x") (.number .least) (by decide) (by decide) (by decide +kernel)

/-- The text of a power with the least exponent. -/
theorem least_exponent_overruns :
    ((Session.new {}).differentiate "x^(-79228162514264337593543950335)" "x").1 =
      .error .uncheckedSubtraction := by
  decide +kernel

end Reckon
