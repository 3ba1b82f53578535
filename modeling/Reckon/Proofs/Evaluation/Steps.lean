import Mathlib.Data.List.Forall2
import Reckon.Expr.Evaluation

/-!
# Steps of evaluation

What evaluation does with each kind of tree: an equation for the outcome in terms of the outcomes of
the parts, and, for an evaluation that gives a value, the values of the parts and what was made of
them.
-/

namespace Reckon

/-! ## Arguments -/

section

variable {α β : Type} {f : α → Except Fault β}

/-- Nothing to evaluate gives no values. -/
theorem mapM_nil_eq_ok {ws : List β} : [].mapM f = .ok ws ↔ ws = [] := by
  rw [List.mapM_nil]
  constructor
  · intro h
    cases h
    rfl
  · rintro rfl
    rfl

/-- Evaluating a list in order gives values when the first entry and then the rest give theirs. -/
theorem mapM_cons_eq_ok {a : α} {as : List α} {ws : List β} :
    (a :: as).mapM f = .ok ws ↔
      ∃ v vs, f a = .ok v ∧ as.mapM f = .ok vs ∧ ws = v :: vs := by
  rw [List.mapM_cons, bind_eq_ok]
  constructor
  · intro h
    obtain ⟨v, first, h⟩ := h
    obtain ⟨vs, others, h⟩ := bind_eq_ok.1 h
    exact ⟨v, vs, first, others, (Except.ok.inj h).symm⟩
  · rintro ⟨v, vs, first, others, rfl⟩
    exact ⟨v, first, bind_eq_ok.2 ⟨vs, others, rfl⟩⟩

/-- A list evaluates to the values of its entries, each of which succeeds. -/
theorem mapM_eq_ok_iff {as : List α} {ws : List β} :
    as.mapM f = .ok ws ↔ List.Forall₂ (fun a w => f a = .ok w) as ws := by
  induction as generalizing ws with
  | nil => rw [mapM_nil_eq_ok, List.forall₂_nil_left_iff]
  | cons a as ih => simp only [mapM_cons_eq_ok, List.forall₂_cons_left_iff, ih]

/-- A list evaluates if all of its entries do. -/
theorem exists_mapM_eq_ok {as : List α} (h : ∀ a ∈ as, ∃ w, f a = .ok w) :
    ∃ ws, as.mapM f = .ok ws := by
  induction as with
  | nil => exact ⟨[], rfl⟩
  | cons a as ih =>
    obtain ⟨w, first⟩ := h a List.mem_cons_self
    obtain ⟨ws, others⟩ := ih fun other mem => h other (List.mem_cons_of_mem a mem)
    exact ⟨w :: ws, mapM_cons_eq_ok.2 ⟨w, ws, first, others, rfl⟩⟩

end

namespace Value

/-- An operation gives a number only where both operands are numbers and the operator takes them. -/
theorem combine_eq_number {op : Operator} {left right : Value} {d : Decimal} :
    combine op left right = .ok (.number d) ↔
      ∃ a b, left = .number a ∧ right = .number b ∧ op.apply a b = .ok d := by
  constructor
  · intro h
    cases left with
    | symbolic text => cases h
    | number a =>
      cases right with
      | symbolic text => cases h
      | number b =>
        refine ⟨a, b, rfl, rfl, ?_⟩
        rw [combine] at h
        cases result : op.apply a b with
        | error fault =>
          rw [result] at h
          cases h
        | ok c =>
          rw [result] at h
          cases h
          rfl
  · rintro ⟨a, b, rfl, rfl, applied⟩
    rw [combine, applied]
    rfl

/-- Text is composed where one of the operands is text, and it is composed of both. -/
theorem eq_of_combine_eq_symbolic {op : Operator} {left right : Value} {text : String}
    (h : combine op left right = .ok (.symbolic text)) :
    text = "(" ++ left.render ++ " " ++ op.symbol ++ " " ++ right.render ++ ")" := by
  cases left with
  | symbolic text =>
    rw [combine_symbolic_left] at h
    cases h
    rfl
  | number a =>
    cases right with
    | symbolic text =>
      rw [combine_symbolic_right] at h
      cases h
      rfl
    | number b =>
      rw [combine] at h
      cases result : op.apply a b with
      | error fault =>
        rw [result] at h
        cases h
      | ok c =>
        rw [result] at h
        cases h

/-- A signed value is a number only where the value was one. -/
theorem withSign_eq_number {sign : Sign} {value : Value} {d : Decimal} :
    value.withSign sign = .number d ↔
      ∃ c, value = .number c ∧ d = match sign with | .positive => c | .negative => c.neg := by
  cases value with
  | number c => cases sign <;> simp [withSign, negate, eq_comm]
  | symbolic text =>
    cases sign with
    | positive => simp [withSign]
    | negative =>
      simp only [withSign, negate]
      split <;> simp

/-- Asking for a number succeeds on that number alone. -/
theorem expectNumber_eq_ok {problem : String → ArithmeticProblem} {value : Value} {d : Decimal} :
    value.expectNumber problem = .ok d ↔ value = .number d := by
  cases value <;> simp [expectNumber]

/-- Arguments that all are numbers. -/
theorem mapM_number?_eq_some {args : List Value} {numbers : List Decimal} :
    args.mapM number? = some numbers ↔ args = numbers.map number := by
  induction args generalizing numbers with
  | nil => cases numbers <;> simp
  | cons arg args ih =>
    cases arg with
    | symbolic text => cases numbers <;> simp [number?]
    | number d =>
      rw [List.mapM_cons]
      cases numbers with
      | nil => cases args.mapM number? <;> simp [number?]
      | cons c numbers =>
        rw [List.map_cons, List.cons.injEq, ← ih, number.injEq]
        cases args.mapM number? <;> simp [number?]

/-- A native call depends on the measure of angles and on nothing else among the settings. -/
theorem callNative_congr {settings settings' : Settings} (same : settings'.angle = settings.angle)
    (name : String) (native : Native) (args : List Value) :
    callNative settings' name native args = callNative settings name native args := by
  rw [callNative, callNative, same]

/-- The text of a native call is composed of the texts of its arguments. -/
theorem eq_of_callNative_eq_symbolic {settings : Settings} {name : String} {native : Native}
    {args : List Value} {text : String}
    (h : callNative settings name native args = .ok (symbolic text)) :
    text = name ++ "(" ++ commaSeparated (args.map render) ++ ")" := by
  unfold callNative at h
  split at h
  · cases h
    rfl
  · split at h
    · cases h
    · unfold ofFloat at h
      split at h
      · cases h
      · split at h <;> cases h

end Value

namespace Expr

variable {settings : Settings} {levels : Nat} {s : Scope} {w : Value}

/-! ## One step of evaluation -/

/-- Without a level left, evaluation stops at the limit. -/
theorem evalWithin_zero {e : Expr} :
    evalWithin settings 0 s e = .error (.depthExceeded settings.maxDepth) := rfl

/-- A signed tree evaluates its operand and gives the value its sign. -/
theorem evalWithin_signed (sign : Sign) (e : Expr) :
    evalWithin settings (levels + 1) s (.signed sign e) =
      evalWithin settings levels s e >>= fun v => .ok (v.withSign sign) := by
  rw [evalWithin]
  cases evalWithin settings levels s e <;> rfl

/-- A binary tree evaluates its left operand, then its right one, and combines the values. -/
theorem evalWithin_binary (op : Operator) (left right : Expr) :
    evalWithin settings (levels + 1) s (.binary op left right) =
      evalWithin settings levels s left >>= fun l =>
        evalWithin settings levels s right >>= fun r => l.combine op r := by
  rw [evalWithin]
  cases evalWithin settings levels s left with
  | error fault => rfl
  | ok l => cases evalWithin settings levels s right <;> rfl

/-- What is no scalar has no value. -/
theorem evalWithin_not_scalar {e : Expr} (h : e.kind = .vector ∨ e.kind = .matrix ∨
    e.kind = .definition) : evalWithin settings (levels + 1) s e = .error (.notScalar e.kind) := by
  cases e with
  | vector items => rfl
  | matrix columns => rfl
  | definition name params body => rfl
  | _ => simp [kind] at h

attribute [local simp] evalWithin

/-- Without a level left, nothing has a value. -/
theorem evalWithin_zero_ne_ok {e : Expr} : evalWithin settings 0 s e ≠ .ok w := by
  simp

/-- A literal evaluates to its number. -/
theorem evalWithin_number_eq_ok {d : Decimal} :
    evalWithin settings (levels + 1) s (.number d) = .ok w ↔ w = .number d := by
  simp [eq_comm]

/-- A variable evaluates to what its scope binds to it, with its coefficient and exponent. -/
theorem evalWithin_variable {name : String} {term : Option Monomial} :
    evalWithin settings (levels + 1) s (.variable name term) = s.valueOf name term := by
  simp

/-- A signed tree has a value exactly when its operand does. -/
theorem evalWithin_signed_eq_ok {sign : Sign} {e : Expr} :
    evalWithin settings (levels + 1) s (.signed sign e) = .ok w ↔
      ∃ v, evalWithin settings levels s e = .ok v ∧ w = v.withSign sign := by
  rw [evalWithin_signed, bind_eq_ok]
  simp only [Except.ok.injEq, eq_comm]

/-- A binary tree has a value exactly when both operands do and the operator combines them. -/
theorem evalWithin_binary_eq_ok {op : Operator} {left right : Expr} :
    evalWithin settings (levels + 1) s (.binary op left right) = .ok w ↔
      ∃ l r, evalWithin settings levels s left = .ok l ∧
        evalWithin settings levels s right = .ok r ∧ l.combine op r = .ok w := by
  rw [evalWithin_binary]
  simp only [bind_eq_ok, exists_and_left]

/-- A vector has no value of its own. -/
theorem evalWithin_vector_ne_ok {items : List Expr} :
    evalWithin settings levels s (.vector items) ≠ .ok w := by
  cases levels <;> simp

/-- A matrix has no value of its own. -/
theorem evalWithin_matrix_ne_ok {columns : List Expr} :
    evalWithin settings levels s (.matrix columns) ≠ .ok w := by
  cases levels <;> simp

/-- A definition has no value of its own. -/
theorem evalWithin_definition_ne_ok {name : String} {params : List String} {body : Expr} :
    evalWithin settings levels s (.definition name params body) ≠ .ok w := by
  cases levels <;> simp

/-! ## Calls -/

section

variable {name : String} {args : List Expr}

/-- A call of a user function evaluates its arguments, binds the parameters in a child scope and
evaluates the body there. -/
theorem evalWithin_user {f : UserFunction} (found : s.functions.get? name = some f)
    (arity : args.length = f.params.length) :
    evalWithin settings (levels + 1) s (.call name args) =
      args.mapM (fun arg => evalWithin settings levels s arg) >>= fun values =>
        evalWithin settings levels (s.child.bindAll (f.params.zip values)) f.body := by
  rw [evalWithin, found]
  dsimp only
  rw [if_neg (Decidable.not_not.2 arity)]
  cases args.mapM (fun arg => evalWithin settings levels s arg) <;> rfl

/-- A user function called with another number of arguments is refused, and no argument is
evaluated. -/
theorem evalWithin_user_of_arity {f : UserFunction} (found : s.functions.get? name = some f)
    (differ : args.length ≠ f.params.length) :
    evalWithin settings (levels + 1) s (.call name args) =
      .error (.arity name f.params.length args.length) := by
  rw [evalWithin, found]
  dsimp only
  rw [if_pos differ]

/-- A call of a native function evaluates its arguments and runs the function on the values. -/
theorem evalWithin_native (free : s.functions.get? name = none) (other : name ≠ integralName)
    {native : Native} (known : s.natives.get? name = some native) :
    evalWithin settings (levels + 1) s (.call name args) =
      args.mapM (fun arg => evalWithin settings levels s arg) >>= fun values =>
        Value.callNative settings name native values := by
  rw [evalWithin, free]
  dsimp only
  rw [if_neg other, known]
  cases args.mapM (fun arg => evalWithin settings levels s arg) <;> rfl

/-- A call of a name that no function has is refused. -/
theorem evalWithin_unresolved (free : s.functions.get? name = none) (other : name ≠ integralName)
    (unknown : s.natives.get? name = none) :
    evalWithin settings (levels + 1) s (.call name args) = .error (.unresolvedFunction name) := by
  rw [evalWithin, free]
  dsimp only
  rw [if_neg other, unknown]

/-- A user function takes a call before anything else does. -/
theorem evalWithin_user_eq_ok {f : UserFunction} (found : s.functions.get? name = some f) :
    evalWithin settings (levels + 1) s (.call name args) = .ok w ↔
      args.length = f.params.length ∧ ∃ values,
        args.mapM (fun arg => evalWithin settings levels s arg) = .ok values ∧
          evalWithin settings levels (s.child.bindAll (f.params.zip values)) f.body = .ok w := by
  by_cases arity : args.length = f.params.length
  · rw [evalWithin_user found arity, bind_eq_ok]
    simp only [arity, true_and]
  · rw [evalWithin_user_of_arity found arity]
    simp only [reduceCtorEq, arity, false_and]

/-- A call of the integral goes by its own form, with the samples one level down. -/
theorem evalWithin_integral (free : s.functions.get? integralName = none) :
    evalWithin settings (levels + 1) s (.call integralName args) =
      integralForm (fun inner e => evalWithin settings levels inner e) s args := by
  rw [evalWithin, free]
  dsimp only
  rw [if_pos rfl]

/-- A native call has a value exactly when its arguments do and the function takes them. -/
theorem evalWithin_native_eq_ok (free : s.functions.get? name = none)
    (other : name ≠ integralName) :
    evalWithin settings (levels + 1) s (.call name args) = .ok w ↔
      ∃ native values, s.natives.get? name = some native ∧
        args.mapM (fun arg => evalWithin settings levels s arg) = .ok values ∧
          Value.callNative settings name native values = .ok w := by
  cases known : s.natives.get? name with
  | none =>
    rw [evalWithin_unresolved free other known]
    simp only [reduceCtorEq, false_and, exists_false]
  | some native =>
    rw [evalWithin_native free other known, bind_eq_ok]
    simp only [Option.some.injEq, exists_and_left, exists_eq_left']

/-- A sample of an integrand is its value, which has to be a number. -/
theorem integrateWith_eq (eval : Scope → Except Fault Value) (target : String)
    (low high : Decimal) :
    integrateWith eval s target low high = simpson low high defaultIntervals fun x =>
      eval (s.inherit.bind target (.number x)) >>= fun value =>
        value.expectNumber .integrandNotNumeric := by
  rw [integrateWith]
  congr 1
  funext x
  cases eval (s.inherit.bind target (.number x)) <;> rfl

/-- An integral evaluates its lower bound, its upper bound, and then the samples between them. -/
theorem integralForm_eq (eval : Scope → Expr → Except Fault Value) (body lower upper : Expr)
    (target : String) :
    integralForm eval s [body, .variable target none, lower, upper] =
      eval s lower >>= fun lowValue =>
        lowValue.expectNumber .boundNotNumeric >>= fun low =>
          eval s upper >>= fun highValue =>
            highValue.expectNumber .boundNotNumeric >>= fun high =>
              integrateWith (fun inner => eval inner body) s target low high >>= fun area =>
                .ok (.number area) := by
  rw [integralForm]
  cases eval s lower with
  | error fault => rfl
  | ok lowValue =>
    dsimp only [bind, Except.bind]
    cases lowValue.expectNumber .boundNotNumeric with
    | error fault => rfl
    | ok low =>
      dsimp only
      cases eval s upper with
      | error fault => rfl
      | ok highValue =>
        dsimp only
        cases highValue.expectNumber .boundNotNumeric with
        | error fault => rfl
        | ok high =>
          dsimp only
          cases integrateWith (fun inner => eval inner body) s target low high <;> rfl

/-- The arguments are those of an integral: a body, a plain name and two bounds. -/
def IsIntegral (args : List Expr) : Prop :=
  ∃ body target lower upper, args = [body, .variable target none, lower, upper]

/-- The fault of an `int` form with arguments that are not those of an integral. -/
def integralFault : List Expr → Fault
  | [_, other, _, _] => .unsupported (.integrationOver other.kind)
  | args => .arity integralName 4 args.length

/-- An integral of another form is refused for what is wrong with the form. -/
theorem integralForm_of_not_isIntegral (irregular : ¬IsIntegral args)
    (eval : Scope → Expr → Except Fault Value) :
    integralForm eval s args = .error (integralFault args) := by
  unfold integralForm integralFault
  split
  · next body name lower upper => exact absurd ⟨body, name, lower, upper, rfl⟩ irregular
  · rfl
  · next others =>
    split
    · next body other lower upper _ => exact absurd rfl (others body other lower upper)
    · rfl

/-- An integral has numbers as bounds, and it is a number. -/
theorem integralForm_eq_ok {eval : Scope → Expr → Except Fault Value} :
    integralForm eval s args = .ok w ↔
      ∃ body name lower upper low high area, args = [body, .variable name none, lower, upper] ∧
        eval s lower = .ok (.number low) ∧ eval s upper = .ok (.number high) ∧
        integrateWith (fun inner => eval inner body) s name low high = .ok area ∧
        w = .number area := by
  constructor
  · intro h
    by_cases regular : IsIntegral args
    · obtain ⟨body, name, lower, upper, rfl⟩ := regular
      rw [integralForm_eq] at h
      obtain ⟨_, atLower, afterLower⟩ := bind_eq_ok.1 h
      obtain ⟨low, isLow, afterLow⟩ := bind_eq_ok.1 afterLower
      obtain ⟨_, atUpper, afterUpper⟩ := bind_eq_ok.1 afterLow
      obtain ⟨high, isHigh, afterHigh⟩ := bind_eq_ok.1 afterUpper
      obtain ⟨area, found, result⟩ := bind_eq_ok.1 afterHigh
      obtain rfl := Value.expectNumber_eq_ok.1 isLow
      obtain rfl := Value.expectNumber_eq_ok.1 isHigh
      exact ⟨body, name, lower, upper, low, high, area, rfl, atLower, atUpper, found,
        (Except.ok.inj result).symm⟩
    · rw [integralForm_of_not_isIntegral regular] at h
      cases h
  · rintro ⟨body, name, lower, upper, low, high, area, rfl, atLower, atUpper, found, rfl⟩
    simp only [integralForm, atLower, atUpper, Value.expectNumber, found]
    rfl

end

end Expr

end Reckon
