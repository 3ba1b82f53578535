import Mathlib.Tactic.SplitIfs
import Reckon.Proofs.Comparison
import Reckon.Proofs.Evaluation.Steps

/-!
# Faults of evaluation

Which faults a computation can end with. A bound on them is kept when computations are run one after
the other, over arguments in order and by integrals, and arithmetic only adds faults that say why a
number could not be computed. So what evaluation reports are the faults of its own rules, and those
that native functions report.
-/

namespace Reckon

/-- If the computation fails, its fault is an allowed one. -/
def FailsWithin (allowed : Fault → Prop) {α : Type} (x : Except Fault α) : Prop :=
  ∀ fault, x = .error fault → allowed fault

/-- A fault that a rule of evaluation reports, other than for a lack of levels. -/
def Fault.IsOfEvaluation : Fault → Prop
  | arithmetic _ | arity _ _ _ | unresolvedFunction _ | notScalar _ | unsupported _ => True
  | _ => False

section

variable {allowed weaker : Fault → Prop} {α β : Type}

/-- A result has no fault to speak of. -/
theorem failsWithin_ok (a : α) : FailsWithin allowed (.ok a) :=
  nofun

/-- A failure stays within any set of faults that has its fault. -/
theorem failsWithin_error {fault : Fault} (h : allowed fault) :
    FailsWithin allowed (.error fault : Except Fault α) := by
  rintro _ ⟨⟩
  exact h

namespace FailsWithin

/-- Faults within one set are within every larger one. -/
theorem mono {x : Except Fault α} (h : FailsWithin allowed x)
    (le : ∀ fault, allowed fault → weaker fault) : FailsWithin weaker x :=
  fun fault failed => le fault (h fault failed)

/-- Two steps one after the other fail within what both of them may report. -/
theorem bind {x : Except Fault α} {f : α → Except Fault β} (h : FailsWithin allowed x)
    (hs : ∀ a, FailsWithin allowed (f a)) : FailsWithin allowed (x >>= f) := by
  cases x with
  | ok a => exact hs a
  | error fault => exact failsWithin_error (h fault rfl)

/-- A function on the result adds no fault. -/
theorem map {x : Except Fault α} (h : FailsWithin allowed x) (f : α → β) :
    FailsWithin allowed (x.map f) := by
  cases x with
  | ok a => exact failsWithin_ok (f a)
  | error fault => exact failsWithin_error (h fault rfl)

/-- A list computed in order fails within what its entries may report. -/
theorem mapM {f : α → Except Fault β} {as : List α} (h : ∀ a ∈ as, FailsWithin allowed (f a)) :
    FailsWithin allowed (as.mapM f) := by
  induction as with
  | nil => exact failsWithin_ok []
  | cons a as ih =>
    rw [List.forall_mem_cons] at h
    rw [List.mapM_cons]
    exact h.1.bind fun b => (ih h.2).bind fun bs => failsWithin_ok (b :: bs)

/-- A fold fails within what its steps may report. -/
theorem foldlM {f : β → α → Except Fault β} (h : ∀ b a, FailsWithin allowed (f b a)) (as : List α)
    (b : β) : FailsWithin allowed (as.foldlM f b) := by
  induction as generalizing b with
  | nil => exact failsWithin_ok b
  | cons a as ih =>
    rw [List.foldlM_cons]
    exact (h b a).bind ih

end FailsWithin

end

/-! ## Arithmetic -/

section

variable {allowed : Fault → Prop} (covers : ∀ fault, fault.IsOfEvaluation → allowed fault)

include covers

/-- Where arithmetic faults are allowed, every problem of arithmetic is. -/
theorem failsWithin_arithmetic {α : Type} (problem : ArithmeticProblem) :
    FailsWithin allowed (.error (.arithmetic problem) : Except Fault α) :=
  failsWithin_error (covers _ trivial)

/-- A range check reports nothing but an overflow. -/
theorem failsWithin_inRange (x : Option Decimal) :
    FailsWithin allowed (inRange x : Except Fault Decimal) := by
  cases x with
  | none => exact failsWithin_arithmetic covers _
  | some d => exact failsWithin_ok d

/-- An integral adds to the faults of its samples that a number has no room. -/
theorem failsWithin_simpson {f : Decimal → Except Fault Decimal}
    (samples : ∀ x, FailsWithin allowed (f x)) (lower upper : Decimal) (intervals : UInt64) :
    FailsWithin allowed (simpson lower upper intervals f) := by
  have fits := failsWithin_inRange covers
  have interior : ∀ step i, FailsWithin allowed (interiorSample f lower step i) := fun step i =>
    (fits _).bind fun _ => (fits _).bind fun _ => (fits _).bind fun x => (samples x).bind fun _ =>
      fits _
  refine (fits _).bind fun _ => (fits _).bind fun _ => (fits _).bind fun step => ?_
  refine (samples lower).bind fun _ => (samples upper).bind fun _ => (fits _).bind fun ends => ?_
  refine (FailsWithin.foldlM (fun sum i => ?_) _ ends).bind fun _ => fits _
  exact (interior step i).bind fun _ => fits _

/-- A missing result of arithmetic reports nothing but its problem. -/
theorem Decimal.failsWithin_orProblem (problem : ArithmeticProblem) (x : Option Decimal) :
    FailsWithin allowed (orProblem problem x) := by
  cases x with
  | none => exact failsWithin_arithmetic covers problem
  | some d => exact failsWithin_ok d

/-- A power reports nothing but problems of arithmetic. -/
theorem Decimal.failsWithin_power (base exponent : Decimal) :
    FailsWithin allowed (base.power exponent) := by
  have result := Decimal.failsWithin_orProblem covers (.powerOverflow base exponent)
  unfold Decimal.power
  dsimp only
  split_ifs <;> first | exact result _ | exact failsWithin_arithmetic covers _

/-- An operator on numbers reports nothing but problems of arithmetic. -/
theorem Operator.failsWithin_apply (op : Operator) (a b : Decimal) :
    FailsWithin allowed (op.apply a b) := by
  cases op with
  | add | subtract | multiply => exact Decimal.failsWithin_orProblem covers _ _
  | divide =>
    unfold Operator.apply
    dsimp only
    split_ifs
    · exact failsWithin_arithmetic covers _
    · exact Decimal.failsWithin_orProblem covers _ _
  | power => exact Decimal.failsWithin_power covers a b
  | _ => exact failsWithin_ok _

/-! ## Values -/

namespace Value

/-- An operator on values reports nothing but problems of arithmetic. -/
theorem failsWithin_combine (op : Operator) (left right : Value) :
    FailsWithin allowed (left.combine op right) := by
  cases left with
  | symbolic text => exact failsWithin_ok _
  | number a =>
    cases right with
    | symbolic text => exact failsWithin_ok _
    | number b => exact (Operator.failsWithin_apply covers op a b).map _

/-- Asking for a number reports nothing but that text was given. -/
theorem failsWithin_expectNumber (problem : String → ArithmeticProblem) (v : Value) :
    FailsWithin allowed (v.expectNumber problem) := by
  cases v with
  | number d => exact failsWithin_ok d
  | symbolic text => exact failsWithin_arithmetic covers _

/-- A machine number that becomes a decimal reports nothing but that it is not finite or too large.
-/
theorem failsWithin_ofFloat (x : Float) : FailsWithin allowed (ofFloat x) := by
  unfold ofFloat
  split
  · exact failsWithin_arithmetic covers _
  · split
    · exact failsWithin_ok _
    · exact failsWithin_arithmetic covers _

/-- A native call reports what its conversions report and what the function itself reports. -/
theorem failsWithin_callNative (settings : Settings) (name : String) {native : Native}
    (reports : ∀ args, FailsWithin allowed (native.run args)) (args : List Value) :
    FailsWithin allowed (callNative settings name native args) := by
  have called : ∀ mode args, FailsWithin allowed (native.call mode args) := by
    intro mode args
    unfold Native.call
    split
    · exact reports _
    · exact (reports args).map _
    · exact reports args
  unfold callNative
  split
  · exact failsWithin_ok _
  · next numbers _ =>
    have result := (called settings.angle (numbers.map Decimal.toFloat)).bind
      (failsWithin_ofFloat covers)
    generalize native.call settings.angle (numbers.map Decimal.toFloat) = outcome at result ⊢
    cases outcome <;> exact result

end Value

/-- A coefficient and an exponent report what their product and power report. -/
theorem Monomial.failsWithin_apply (term : Monomial) (value : Value) :
    FailsWithin allowed (term.apply value) := by
  cases value with
  | symbolic text => exact failsWithin_ok _
  | number base =>
    have applied := (Decimal.failsWithin_power covers base term.exponent).bind fun power =>
      (Operator.failsWithin_apply covers .multiply term.coefficient power).map Value.number
    rw [Monomial.apply]
    generalize base.power term.exponent = power at applied ⊢
    cases power <;> exact applied

/-- Looking a variable up reports what its coefficient and exponent report. -/
theorem Scope.failsWithin_valueOf (s : Scope) (name : String) (term : Option Monomial) :
    FailsWithin allowed (s.valueOf name term) := by
  unfold valueOf
  cases s.binding? name with
  | none => cases term <;> exact failsWithin_ok _
  | some value =>
    cases term with
    | none => exact failsWithin_ok _
    | some term => exact term.failsWithin_apply covers value

end

/-! ## Native functions -/

/-- What the native functions of the scope report is allowed. -/
def Scope.NativesFailWithin (allowed : Fault → Prop) (s : Scope) : Prop :=
  ∀ name native, s.natives.get? name = some native → ∀ args, FailsWithin allowed (native.run args)

namespace Scope.NativesFailWithin

variable {allowed weaker : Fault → Prop} {s : Scope}

/-- Native functions that report within one set report within every larger one. -/
theorem mono (h : s.NativesFailWithin allowed) (le : ∀ fault, allowed fault → weaker fault) :
    s.NativesFailWithin weaker :=
  fun name native known args => (h name native known args).mono le

/-- The scope of a sample has the native functions of its caller. -/
theorem sample (h : s.NativesFailWithin allowed) (target : String) (value : Value) :
    (s.inherit.bind target value).NativesFailWithin allowed := h

/-- The scope of a call has the native functions of its caller. -/
theorem call (h : s.NativesFailWithin allowed) (bindings : List (String × Value)) :
    (s.child.bindAll bindings).NativesFailWithin allowed := h

end Scope.NativesFailWithin

/-- A native function of one argument reports only faults of evaluation. -/
theorem Native.failsWithin_ofUnary (name : String) (f : Float → Float) (angle : AngleUse)
    (args : List Float) : FailsWithin Fault.IsOfEvaluation ((ofUnary name f angle).run args) := by
  unfold ofUnary
  dsimp only
  split
  · exact failsWithin_ok _
  · exact failsWithin_error trivial

/-- The built-in functions report nothing but a wrong count of arguments. -/
theorem Scope.nativesFailWithin_root : root.NativesFailWithin Fault.IsOfEvaluation := by
  intro name native found args
  obtain ⟨front, back, shape, -⟩ := List.lookup_eq_some_iff.1 found
  have member : (name, native) ∈ Native.builtins := by
    change (name, native) ∈ root.natives.entries
    rw [shape]
    exact List.mem_append_right front List.mem_cons_self
  simp only [Native.builtins, List.mem_cons, List.not_mem_nil, or_false, Prod.mk.injEq] at member
  rcases member with ⟨-, rfl⟩ | ⟨-, rfl⟩ | ⟨-, rfl⟩ | ⟨-, rfl⟩ | ⟨-, rfl⟩ | ⟨-, rfl⟩ | ⟨-, rfl⟩ |
    ⟨-, rfl⟩ | ⟨-, rfl⟩ | ⟨-, rfl⟩ | ⟨-, rfl⟩ | ⟨-, rfl⟩ | ⟨-, rfl⟩ | ⟨-, rfl⟩ <;>
    exact Native.failsWithin_ofUnary _ _ _ _

/-! ## Trees -/

namespace Expr

section

variable {allowed : Fault → Prop} (covers : ∀ fault, fault.IsOfEvaluation → allowed fault)
  {settings : Settings} {levels : Nat} {s : Scope}

include covers

/-- An integral reports what its bounds and samples report, and that its form is wrong. -/
theorem failsWithin_integralForm {eval : Scope → Expr → Except Fault Value} {args : List Expr}
    (bounds : ∀ e ∈ args, FailsWithin allowed (eval s e))
    (samples : ∀ e ∈ args, ∀ target x,
      FailsWithin allowed (eval (s.inherit.bind target (.number x)) e)) :
    FailsWithin allowed (integralForm eval s args) := by
  by_cases regular : IsIntegral args
  · obtain ⟨body, target, lower, upper, rfl⟩ := regular
    have numeric := Value.failsWithin_expectNumber covers
    rw [integralForm_eq]
    refine (bounds lower (by simp)).bind fun low => (numeric _ low).bind fun a => ?_
    refine (bounds upper (by simp)).bind fun high => (numeric _ high).bind fun b => ?_
    rw [integrateWith_eq]
    refine (failsWithin_simpson covers (fun x => ?_) a b defaultIntervals).bind fun area =>
      failsWithin_ok _
    exact (samples body List.mem_cons_self target x).bind (numeric _)
  · rw [integralForm_of_not_isIntegral regular]
    unfold integralFault
    split <;> exact failsWithin_error (covers _ trivial)

/-- A call that goes to no user function fails with what its arguments, the samples of an integral
and the native functions report. -/
theorem failsWithin_call (natives : s.NativesFailWithin allowed) {name : String} {args : List Expr}
    (free : s.functions.get? name = none)
    (arguments : ∀ arg ∈ args, FailsWithin allowed (arg.evalWithin settings levels s))
    (samples : ∀ arg ∈ args, ∀ target x,
      FailsWithin allowed (arg.evalWithin settings levels (s.inherit.bind target (.number x)))) :
    FailsWithin allowed ((call name args).evalWithin settings (levels + 1) s) := by
  by_cases integral : name = integralName
  · subst integral
    rw [evalWithin_integral free]
    exact failsWithin_integralForm covers arguments samples
  · cases known : s.natives.get? name with
    | none =>
      rw [evalWithin_unresolved free integral known]
      exact failsWithin_error (covers _ trivial)
    | some native =>
      rw [evalWithin_native free integral known]
      exact (FailsWithin.mapM arguments).bind
        (Value.failsWithin_callNative covers settings name (natives name native known))

/-- Evaluation fails with what its own rules and the native functions report. -/
theorem failsWithin_evalWithin (levelled : ∀ limit, allowed (.depthExceeded limit))
    (natives : s.NativesFailWithin allowed) (e : Expr) :
    FailsWithin allowed (evalWithin settings levels s e) := by
  induction levels generalizing s e with
  | zero => exact failsWithin_error (levelled _)
  | succ levels ih =>
    cases e with
    | number d => exact failsWithin_ok _
    | «variable» name term =>
      rw [evalWithin_variable]
      exact s.failsWithin_valueOf covers name term
    | signed sign operand =>
      rw [evalWithin_signed]
      exact (ih natives operand).bind fun v => failsWithin_ok _
    | binary op left right =>
      rw [evalWithin_binary]
      exact (ih natives left).bind fun l => (ih natives right).bind fun r =>
        Value.failsWithin_combine covers op l r
    | vector items => exact failsWithin_error (covers _ trivial)
    | matrix columns => exact failsWithin_error (covers _ trivial)
    | definition name params body => exact failsWithin_error (covers _ trivial)
    | call name args =>
      cases user : s.functions.get? name with
      | none =>
        exact failsWithin_call covers natives user (fun arg _ => ih natives arg)
          fun arg _ target x => ih (natives.sample target (.number x)) arg
      | some f =>
        by_cases arity : args.length = f.params.length
        · rw [evalWithin_user user arity]
          exact (FailsWithin.mapM fun arg _ => ih natives arg).bind fun values =>
            ih (natives.call (f.params.zip values)) f.body
        · rw [evalWithin_user_of_arity user arity]
          exact failsWithin_error (covers _ trivial)

end

end Expr

end Reckon
