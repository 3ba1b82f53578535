import Reckon.Proofs.Decimal.Exact
import Reckon.Proofs.Decimal.Operators
import Reckon.Proofs.Evaluation.Steps
import Reckon.Proofs.Syntax.Writing

/-!
# Reaching a number

A tree reaches a number if evaluation gives it, possibly with another scale, whenever there are
enough levels. There is one rule for each kind of tree. They need no more of the parts than that
these reach their numbers, so what is said here of trees holds of all trees with the same values.
-/

namespace Reckon

/-! ## Native functions -/

/-- The native function gives the same number for all arguments of the same values. -/
def NativeByValue (settings : Settings) (name : String) (native : Native)
    (numbers : List Decimal) : Prop :=
  ∀ numbers' : List Decimal, List.Forall₂ (fun d d' => d'.toRat = d.toRat) numbers numbers' →
    ∀ v, Value.callNative settings name native (numbers.map .number) = .ok (.number v) →
      ∃ v', Value.callNative settings name native (numbers'.map .number) = .ok (.number v') ∧
        v'.toRat = v.toRat

/-! ## Reaching a number -/

namespace Expr

/-- With the levels or more, evaluation gives the number, possibly with another scale. -/
def Reaches (mode : AngleMode) (s : Scope) (levels : Nat) (e : Expr) (v : Decimal) : Prop :=
  ∀ (settings : Settings) (available : Nat), settings.angle = mode → levels ≤ available →
    ∃ v', e.evalWithin settings available s = .ok (.number v') ∧ v'.toRat = v.toRat

section

variable {mode : AngleMode} {s : Scope} {levels more : Nat} {e left right : Expr} {a b v : Decimal}

/-- What reaches a number with some levels reaches it with more. -/
theorem Reaches.mono (h : e.Reaches mode s levels v) (le : levels ≤ more) :
    e.Reaches mode s more v :=
  fun settings available same enough => h settings available same (Nat.le_trans le enough)

/-- What reaches a number reaches every equal one. -/
theorem Reaches.congr (h : e.Reaches mode s levels v) (same : v.toRat = b.toRat) :
    e.Reaches mode s levels b := by
  intro settings available angle enough
  obtain ⟨v', value, equal⟩ := h settings available angle enough
  exact ⟨v', value, equal.trans same⟩

/-- With one level more, evaluation takes a step. -/
theorem reaches_of_succ (h : ∀ (settings : Settings) (available : Nat), settings.angle = mode →
      levels ≤ available →
        ∃ v', e.evalWithin settings (available + 1) s = .ok (.number v') ∧ v'.toRat = v.toRat) :
    e.Reaches mode s (levels + 1) v := by
  intro settings available same enough
  obtain ⟨below, rfl⟩ : ∃ below, available = below + 1 := ⟨available - 1, by omega⟩
  exact h settings below same (by omega)

/-- A literal reaches every equal number. -/
theorem reaches_number {d : Decimal} (same : d.toRat = v.toRat) :
    (Expr.number d).Reaches mode s 1 v :=
  reaches_of_succ fun _ _ _ _ => ⟨d, evalWithin_number_eq_ok.2 rfl, same⟩

/-- A variable reaches every number equal to the one that it is bound to. -/
theorem reaches_plain {name : String} (bound : s.binding? name = some (.number a))
    (same : a.toRat = v.toRat) : (plain name).Reaches mode s 1 v := by
  refine reaches_of_succ fun settings available _ _ => ⟨a, ?_, same⟩
  rw [plain, evalWithin_variable]
  simp only [Scope.valueOf, bound]

/-- A signed tree reaches the signed number. -/
theorem Reaches.signed {sign : Sign} (h : e.Reaches mode s levels a)
    (result : (Value.number a).withSign sign = .number v) :
    (Expr.signed sign e).Reaches mode s (levels + 1) v := by
  refine reaches_of_succ fun settings available same enough => ?_
  obtain ⟨a', value, equal⟩ := h settings available same enough
  cases sign with
  | positive =>
    cases result
    exact ⟨a', evalWithin_signed_eq_ok.2 ⟨_, value, rfl⟩, equal⟩
  | negative =>
    cases result
    exact ⟨a'.neg, evalWithin_signed_eq_ok.2 ⟨_, value, rfl⟩, Decimal.toRat_neg_congr equal⟩

/-- What is read from the text of a number reaches the number. -/
theorem reaches_signedNumber (d : Decimal) :
    (signedNumber d).Reaches mode s (signedNumber d).height d := by
  have equal := Decimal.toRat_normalize d
  rw [signedNumber]
  split
  · have minus : (Expr.signed .negative (.number d.normalize.neg)).Reaches mode s 2
        d.normalize.neg.neg := (reaches_number rfl).signed rfl
    rw [Decimal.neg_neg] at minus
    exact minus.congr equal
  · exact reaches_number equal

/-- An operation reaches the number that the operator gives, as long as its power depends on values
alone. -/
theorem Reaches.binary {op : Operator} (hl : left.Reaches mode s levels a)
    (hr : right.Reaches mode s levels b) (power : op = .power → Decimal.PowerByValue a b)
    (applied : op.apply a b = .ok v) : (Expr.binary op left right).Reaches mode s (levels + 1) v := by
  refine reaches_of_succ fun settings available same enough => ?_
  obtain ⟨a', atLeft, equalLeft⟩ := hl settings available same enough
  obtain ⟨b', atRight, equalRight⟩ := hr settings available same enough
  obtain ⟨v', result, equal⟩ := Operator.agree_apply equalLeft equalRight power v applied
  have combined : (Value.number a').combine op (.number b') = .ok (.number v') :=
    Value.combine_eq_number.2 ⟨a', b', rfl, rfl, result⟩
  exact ⟨v', evalWithin_binary_eq_ok.2 ⟨_, _, atLeft, atRight, combined⟩, equal⟩

/-- A product is found if there is a decimal for it. -/
theorem Reaches.product (hl : left.Reaches mode s levels a) (hr : right.Reaches mode s levels b)
    (product : v.toRat = a.toRat * b.toRat) :
    (Expr.binary .multiply left right).Reaches mode s (levels + 1) v := by
  refine reaches_of_succ fun settings available same enough => ?_
  obtain ⟨a', atLeft, equalLeft⟩ := hl settings available same enough
  obtain ⟨b', atRight, equalRight⟩ := hr settings available same enough
  rw [← equalLeft, ← equalRight] at product
  obtain ⟨v', result, equal⟩ := Decimal.exists_mul?_of_toRat_eq product
  have applied : Operator.multiply.apply a' b' = .ok v' := by
    rw [Operator.apply, result]
    rfl
  have combined : (Value.number a').combine .multiply (.number b') = .ok (.number v') :=
    Value.combine_eq_number.2 ⟨a', b', rfl, rfl, applied⟩
  exact ⟨v', evalWithin_binary_eq_ok.2 ⟨_, _, atLeft, atRight, combined⟩, equal⟩

/-! ### Calls -/

section

variable {name : String} {args : List Expr} {numbers : List Decimal}

/-- Arguments reach their numbers one by one. -/
theorem exists_numbers (h : List.Forall₂ (fun arg d => Reaches mode s levels arg d) args numbers)
    {settings : Settings} {available : Nat} (same : settings.angle = mode)
    (enough : levels ≤ available) : ∃ numbers' : List Decimal,
      args.mapM (fun arg => arg.evalWithin settings available s) = .ok (numbers'.map .number) ∧
        List.Forall₂ (fun d d' => d'.toRat = d.toRat) numbers numbers' := by
  induction h with
  | nil => exact ⟨[], rfl, .nil⟩
  | cons first _ ih =>
    obtain ⟨d, value, equal⟩ := first settings available same enough
    obtain ⟨others, values, equals⟩ := ih
    exact ⟨d :: others, mapM_cons_eq_ok.2 ⟨_, _, value, values, rfl⟩, .cons equal equals⟩

/-- A call of a user function reaches what its body reaches with parameters equal to what the
arguments reach. -/
theorem reaches_user {f : UserFunction} (found : s.functions.get? name = some f)
    (arity : args.length = f.params.length)
    (given : List.Forall₂ (fun arg d => Reaches mode s levels arg d) args numbers)
    (body : ∀ numbers' : List Decimal,
      List.Forall₂ (fun d d' => d'.toRat = d.toRat) numbers numbers' →
        f.body.Reaches mode (s.child.bindAll (f.params.zip (numbers'.map .number))) levels v) :
    (call name args).Reaches mode s (levels + 1) v := by
  refine reaches_of_succ fun settings available same enough => ?_
  obtain ⟨numbers', values, equals⟩ := exists_numbers given same enough
  obtain ⟨v', result, equal⟩ := body numbers' equals settings available same enough
  exact ⟨v', (evalWithin_user_eq_ok found).2 ⟨arity, _, values, result⟩, equal⟩

/-- A call of a native function reaches what the function gives, as long as that depends on values
alone. -/
theorem reaches_native {settings : Settings} {native : Native}
    (free : s.functions.get? name = none) (other : name ≠ integralName)
    (known : s.natives.get? name = some native)
    (given : List.Forall₂ (fun arg d => Reaches settings.angle s levels arg d) args numbers)
    (byValue : NativeByValue settings name native numbers)
    (called : Value.callNative settings name native (numbers.map .number) = .ok (.number v)) :
    (call name args).Reaches settings.angle s (levels + 1) v := by
  refine reaches_of_succ fun settings' available same enough => ?_
  obtain ⟨numbers', values, equals⟩ := exists_numbers given same enough
  obtain ⟨v', result, equal⟩ := byValue numbers' equals v called
  refine ⟨v', (evalWithin_native_eq_ok free other).2 ⟨native, _, known, values, ?_⟩, equal⟩
  rw [Value.callNative_congr same, result]

/-- An integral is reached if its samples are, whatever their scales. -/
theorem reaches_integral {body lower upper : Expr} {low high : Decimal}
    {sample : Decimal → Except Fault Decimal} (free : s.functions.get? integralName = none)
    (atLower : lower.Reaches mode s levels low) (atUpper : upper.Reaches mode s levels high)
    (samples : ∀ x y, sample x = .ok y → ∀ x', x'.toRat = x.toRat →
      body.Reaches mode (s.inherit.bind name (.number x')) levels y)
    (area : simpson low high defaultIntervals sample = .ok v) :
    (call integralName [body, plain name, lower, upper]).Reaches mode s (levels + 1) v := by
  refine reaches_of_succ fun settings available same enough => ?_
  obtain ⟨low', lowValue, equalLow⟩ := atLower settings available same enough
  obtain ⟨high', highValue, equalHigh⟩ := atUpper settings available same enough
  have agree : Decimal.Agree (simpson low high defaultIntervals sample)
      (integrateWith (fun inner => evalWithin settings available inner body) s name low'
        high') := by
    refine (lifts_extends Eq).simpson (fun _ => rfl) keptByArithmetic_equals
      (fun x _ x' point y value => ?_) equalLow equalHigh
    obtain ⟨y', result, equal⟩ := samples x y value x' point settings available same enough
    refine ⟨y', ?_, equal⟩
    dsimp only
    rw [result]
    rfl
  obtain ⟨v', result, equal⟩ := agree v area
  refine ⟨v', ?_, equal⟩
  rw [evalWithin_integral free, integralForm_eq_ok]
  exact ⟨body, name, lower, upper, low', high', v', rfl, lowValue, highValue, result, rfl⟩

end

end

end Expr

end Reckon
