import Reckon.Proofs.Comparison
import Reckon.Proofs.Evaluation.Steps

/-!
# Evaluations side by side

Two evaluations of trees of the same kind are compared by comparing the evaluations of their parts.
The trees, the scopes, the levels that are left and the settings may differ; what is asked of them
is said rule by rule. An evaluation is compared in this way with itself under another limit.
-/

namespace Reckon

/-- A relation between values, made of one between numbers: numbers are related to numbers, text to
the same text, and a sign in front keeps the relation. -/
structure RelatesValues (D : Decimal → Decimal → Prop) (V : Value → Value → Prop) : Prop where
  number : ∀ {d d' : Decimal}, D d d' → V (.number d) (.number d')
  cases : ∀ {v v' : Value}, V v v' → (∃ text, v = .symbolic text ∧ v' = .symbolic text) ∨
    ∃ d d', v = .number d ∧ v' = .number d' ∧ D d d'
  withSign : ∀ {v v' : Value} (sign : Sign), V v v' → V (v.withSign sign) (v'.withSign sign)

/-- Sameness of numbers gives sameness of values. -/
theorem relatesValues_eq : RelatesValues Eq Eq where
  number := congrArg _
  cases {v v'} same := by
    subst same
    cases v with
    | number d => exact .inr ⟨d, d, rfl, rfl, rfl⟩
    | symbolic text => exact .inl ⟨text, rfl, rfl⟩
  withSign sign same := by rw [same]

/-- Arguments that correspond to those of an integral are those of one over the same variable, if
that stays what it is. -/
theorem Expr.forall₂_integral {P : Expr → Expr → Prop} {body lower upper : Expr} {target : String}
    {args' : List Expr} (stays : ∀ e, P (.variable target none) e → e = .variable target none)
    (h : List.Forall₂ P [body, .variable target none, lower, upper] args') :
    ∃ body' lower' upper', args' = [body', .variable target none, lower', upper'] ∧
      P body body' ∧ P lower lower' ∧ P upper upper' := by
  rcases h with _ | ⟨onBody, _ | ⟨onTarget, _ | ⟨onLower, _ | ⟨onUpper, _ | _⟩⟩⟩⟩
  rw [stays _ onTarget]
  exact ⟨_, _, _, rfl, onBody, onLower, onUpper⟩

namespace Lifts

open Reckon.Expr

variable {faults : Fault → Fault → Prop}
  {R : {α β : Type} → (α → β → Prop) → Except Fault α → Except Fault β → Prop}
  {D : Decimal → Decimal → Prop} {V : Value → Value → Prop} {settings settings' : Settings}
  {levels levels' : Nat} {s s' : Scope}

/-- Related values that are asked to be numbers give related numbers or the same fault. -/
theorem expectNumber (h : Lifts faults R) (faultsRefl : ∀ f, faults f f) (values : RelatesValues D V)
    (problem : String → ArithmeticProblem) {v v' : Value} (same : V v v') :
    R D (v.expectNumber problem) (v'.expectNumber problem) := by
  rcases values.cases same with ⟨text, rfl, rfl⟩ | ⟨d, d', rfl, rfl, equal⟩
  · exact h.error (faultsRefl _)
  · exact h.ok equal

/-- Signed trees are related when their operands are. -/
theorem signed (h : Lifts faults R) (values : RelatesValues D V) {sign : Sign} {e e' : Expr}
    (operand : R V (e.evalWithin settings levels s) (e'.evalWithin settings' levels' s')) :
    R V ((Expr.signed sign e).evalWithin settings (levels + 1) s)
      ((Expr.signed sign e').evalWithin settings' (levels' + 1) s') := by
  rw [evalWithin_signed, evalWithin_signed]
  exact h.bind operand fun v v' _ _ same => h.ok (values.withSign sign same)

/-- Operations are related when their operands are and combining them keeps the relation. -/
theorem binary (h : Lifts faults R) {op : Operator} {left right left' right' : Expr}
    (hl : R V (left.evalWithin settings levels s) (left'.evalWithin settings' levels' s'))
    (hr : R V (right.evalWithin settings levels s) (right'.evalWithin settings' levels' s'))
    (combine : ∀ l r l' r', left.evalWithin settings levels s = .ok l →
      right.evalWithin settings levels s = .ok r → V l l' → V r r' →
        R V (l.combine op r) (l'.combine op r')) :
    R V ((Expr.binary op left right).evalWithin settings (levels + 1) s)
      ((Expr.binary op left' right').evalWithin settings' (levels' + 1) s') := by
  rw [evalWithin_binary, evalWithin_binary]
  refine h.bind hl fun l l' atLeft _ sameLeft => h.bind hr fun r r' atRight _ sameRight => ?_
  exact combine l r l' r' atLeft atRight sameLeft sameRight

section

variable {name : String} {args args' : List Expr}

/-- Calls of one user function are related when the arguments are and the body keeps the relation.
-/
theorem user (h : Lifts faults R) (faultsRefl : ∀ f, faults f f) {f : UserFunction}
    (found : s.functions.get? name = some f) (found' : s'.functions.get? name = some f)
    (given : List.Forall₂ (fun arg arg' => R V (arg.evalWithin settings levels s)
      (arg'.evalWithin settings' levels' s')) args args')
    (body : ∀ values values', args.mapM (fun arg => arg.evalWithin settings levels s) = .ok values →
      List.Forall₂ V values values' →
        R V (f.body.evalWithin settings levels (s.child.bindAll (f.params.zip values)))
          (f.body.evalWithin settings' levels' (s'.child.bindAll (f.params.zip values')))) :
    R V ((Expr.call name args).evalWithin settings (levels + 1) s)
      ((Expr.call name args').evalWithin settings' (levels' + 1) s') := by
  have count : args.length = args'.length := given.length_eq
  by_cases arity : args.length = f.params.length
  · rw [evalWithin_user found arity, evalWithin_user found' (count ▸ arity)]
    exact h.bind (h.mapM given) fun values values' evaluated _ => body values values' evaluated
  · rw [evalWithin_user_of_arity found arity, evalWithin_user_of_arity found' (count ▸ arity), count]
    exact h.error (faultsRefl _)

/-- Calls of one native function are related when the arguments are and the function keeps the
relation. -/
theorem native (h : Lifts faults R) (faultsRefl : ∀ f, faults f f)
    (free : s.functions.get? name = none) (free' : s'.functions.get? name = none)
    (other : name ≠ integralName) (natives : s'.natives.get? name = s.natives.get? name)
    (given : List.Forall₂ (fun arg arg' => R V (arg.evalWithin settings levels s)
      (arg'.evalWithin settings' levels' s')) args args')
    (called : ∀ native values values', s.natives.get? name = some native →
      args.mapM (fun arg => arg.evalWithin settings levels s) = .ok values →
      List.Forall₂ V values values' → R V (Value.callNative settings name native values)
        (Value.callNative settings' name native values')) :
    R V ((Expr.call name args).evalWithin settings (levels + 1) s)
      ((Expr.call name args').evalWithin settings' (levels' + 1) s') := by
  cases known : s.natives.get? name with
  | none =>
    rw [evalWithin_unresolved free other known, evalWithin_unresolved free' other (natives ▸ known)]
    exact h.error (faultsRefl _)
  | some native =>
    rw [evalWithin_native free other known, evalWithin_native free' other (natives ▸ known)]
    exact h.bind (h.mapM given) fun values values' evaluated _ =>
      called native values values' known evaluated

/-- Integrals are compared by their bounds and by the samples of their bodies. -/
theorem integral (h : Lifts faults R) (faultsRefl : ∀ f, faults f f) (kept : KeptByArithmetic D)
    (values : RelatesValues D V) {eval eval' : Scope → Expr → Except Fault Value}
    {body body' lower lower' upper upper' : Expr} {target : String}
    (low : R V (eval s lower) (eval' s' lower')) (high : R V (eval s upper) (eval' s' upper'))
    (samples : ∀ x x', D x x' → R V (eval (s.inherit.bind target (.number x)) body)
      (eval' (s'.inherit.bind target (.number x')) body')) :
    R V (integralForm eval s [body, .variable target none, lower, upper])
      (integralForm eval' s' [body', .variable target none, lower', upper']) := by
  rw [integralForm_eq, integralForm_eq]
  refine h.bind low fun v v' _ _ atLower => ?_
  refine h.bind (h.expectNumber faultsRefl values _ atLower) fun a a' _ _ sameLow => ?_
  refine h.bind high fun w w' _ _ atUpper => ?_
  refine h.bind (h.expectNumber faultsRefl values _ atUpper) fun b b' _ _ sameHigh => ?_
  have integrals : R D (integrateWith (fun inner => eval inner body) s target a b)
      (integrateWith (fun inner => eval' inner body') s' target a' b') := by
    rw [integrateWith_eq, integrateWith_eq]
    refine h.simpson faultsRefl kept (fun x _ x' point => ?_) sameLow sameHigh
    exact h.bind (samples x x' point) fun y y' _ _ => h.expectNumber faultsRefl values _
  exact h.bind integrals fun area area' _ _ same => h.ok (values.number same)

end

/-! ## The same tree under another limit -/

/-- An evaluation is compared with itself, with more levels and another limit, by comparing what
happens where the first one has no level left. -/
theorem evalWithin (h : Lifts faults R) (faultsRefl : ∀ f, faults f f) {extra : Nat}
    (angle : settings'.angle = settings.angle)
    (limit : ∀ s e, R Eq (.error (.depthExceeded settings.maxDepth))
      (evalWithin settings' extra s e)) (levels : Nat) (s : Scope) (e : Expr) :
    R Eq (evalWithin settings levels s e) (evalWithin settings' (levels + extra) s e) := by
  induction levels generalizing s e with
  | zero =>
    rw [evalWithin_zero, Nat.zero_add]
    exact limit s e
  | succ levels ih =>
    rw [Nat.add_right_comm]
    have refl : ∀ x : Except Fault Value, R Eq x x := h.refl faultsRefl fun _ => rfl
    cases e with
    | number d => exact refl _
    | «variable» name term =>
      rw [evalWithin_variable, evalWithin_variable]
      exact refl _
    | signed sign e => exact h.signed relatesValues_eq (ih s e)
    | binary op left right =>
      refine h.binary (ih s left) (ih s right) ?_
      rintro l r _ _ - - rfl rfl
      exact refl _
    | vector items => exact refl _
    | matrix columns => exact refl _
    | definition name params body => exact refl _
    | call name args =>
      have given : List.Forall₂ (fun arg arg' => R Eq (arg.evalWithin settings levels s)
          (arg'.evalWithin settings' (levels + extra) s)) args args :=
        List.forall₂_same.2 fun arg _ => ih s arg
      cases user : s.functions.get? name with
      | some f =>
        refine h.user faultsRefl user user given ?_
        rintro values values' - same
        rw [List.forall₂_eq_eq_eq] at same
        rw [same]
        exact ih _ _
      | none =>
        by_cases integral : name = integralName
        · subst integral
          rw [evalWithin_integral user, evalWithin_integral user]
          by_cases regular : IsIntegral args
          · obtain ⟨body, target, lower, upper, rfl⟩ := regular
            refine h.integral faultsRefl keptByArithmetic_eq relatesValues_eq (ih s lower)
              (ih s upper) ?_
            rintro x _ rfl
            exact ih _ body
          · rw [integralForm_of_not_isIntegral regular, integralForm_of_not_isIntegral regular]
            exact refl _
        · refine h.native faultsRefl user user integral rfl given ?_
          rintro native values values' - - same
          rw [List.forall₂_eq_eq_eq] at same
          rw [same, Value.callNative_congr angle]
          exact refl _

end Lifts

end Reckon
