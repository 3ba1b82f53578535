import Mathlib.Data.Option.NAry
import Reckon.Proofs.Calculus.SamplePoints
import Reckon.Proofs.Evaluation.Reaching
import Reckon.Proofs.Evaluation.Scales

/-!
# Demands on evaluations

Which products an evaluation takes, which powers and which native functions, depends on the values
that come up in it. What may be asked of them is said here for a whole evaluation at once. Where
powers and native functions keep to the values, equal numbers give equal numbers, whatever the texts
are that stand beside them.
-/

namespace Reckon

open Decimal (Equals)
open Value (Akin)

/-! ## What is asked of an evaluation -/

/-- What an evaluation is asked for: of the numbers that it multiplies, of powers that are not of
small integer exponent, and of calls of native functions. -/
structure Demands where
  product : Decimal → Decimal → Prop
  power : Decimal → Decimal → Prop
  native : String → Native → List Decimal → Prop

namespace Demands

/-- What is asked of an operation on two numbers. -/
def Operation (demands : Demands) (a b : Decimal) : Operator → Prop
  | .multiply => demands.product a b
  | .power => b.isSmallInteger = false → demands.power a b
  | _ => True

/-- No product rounds. -/
def exactProducts : Demands where
  product := Decimal.MultipliesExactly
  power _ _ := True
  native _ _ _ := True

/-- No product rounds, and powers and native calls depend on the values of their operands and not on
how these are scaled. -/
def exactByValue (settings : Settings) : Demands where
  product := Decimal.MultipliesExactly
  power := Decimal.PowerByValue
  native := NativeByValue settings

/-- A power that is not of small integer exponent meets the demands by its value alone, and the
others do so anyway. -/
theorem powerByValue_of_operation {settings : Settings} {a b : Decimal}
    (h : (exactByValue settings).Operation a b .power) : Decimal.PowerByValue a b := by
  cases small : b.isSmallInteger with
  | true => exact Decimal.powerByValue_of_isSmallInteger a small
  | false => exact h small

end Demands

namespace Expr

/-- The evaluation of a tree meets the demands in all of its operations and calls, in monomials, in
bodies of functions, and in the samples that its integrals take. -/
def Meets (demands : Demands) (settings : Settings) : (levels : Nat) → Scope → Expr → Prop
  | 0, _, _ => True
  | levels + 1, s, e =>
    match e with
    | .number _ => True
    | .variable name term => ∀ t x, term = some t → s.binding? name = some (.number x) →
        demands.Operation x t.exponent .power ∧
          ∀ p, x.power t.exponent = .ok p → demands.Operation t.coefficient p .multiply
    | .signed _ operand => Meets demands settings levels s operand
    | .binary op left right =>
      Meets demands settings levels s left ∧ Meets demands settings levels s right ∧
        ∀ a b, evalWithin settings levels s left = .ok (.number a) →
          evalWithin settings levels s right = .ok (.number b) → demands.Operation a b op
    | .call name args =>
      match s.functions.get? name with
      | some f =>
        (∀ arg ∈ args, Meets demands settings levels s arg) ∧
          ∀ values, args.mapM (fun arg => evalWithin settings levels s arg) = .ok values →
            Meets demands settings levels (s.child.bindAll (f.params.zip values)) f.body
      | none =>
        if name = integralName then
          ∀ body target lower upper, args = [body, .variable target none, lower, upper] →
            Meets demands settings levels s lower ∧ Meets demands settings levels s upper ∧
              ∀ low high, evalWithin settings levels s lower = .ok (.number low) →
                evalWithin settings levels s upper = .ok (.number high) →
                  ∀ x ∈ samplePoints low high defaultIntervals,
                    Meets demands settings levels (s.inherit.bind target (.number x)) body
        else
          (∀ arg ∈ args, Meets demands settings levels s arg) ∧
            ∀ (native : Native) (numbers : List Decimal), s.natives.get? name = some native →
              args.mapM (fun arg => evalWithin settings levels s arg) =
                  .ok (numbers.map .number) →
                demands.native name native numbers
    | .vector _ => True
    | .matrix _ => True
    | .definition _ _ _ => True

section

variable {demands : Demands} {settings : Settings} {levels : Nat} {s : Scope} {name : String}
  {args : List Expr}

/-- A call of a user function meets the demands in its arguments and in its body, wherever the
arguments have values. -/
theorem Meets.user (h : Meets demands settings (levels + 1) s (.call name args))
    {f : UserFunction} (found : s.functions.get? name = some f) :
    (∀ arg ∈ args, Meets demands settings levels s arg) ∧
      ∀ values, args.mapM (fun arg => evalWithin settings levels s arg) = .ok values →
        Meets demands settings levels (s.child.bindAll (f.params.zip values)) f.body := by
  rw [Meets, found] at h
  exact h

/-- An integral meets the demands in its bounds and in all of its samples. -/
theorem Meets.integral {body lower upper : Expr} {target : String}
    (h : Meets demands settings (levels + 1) s
      (.call integralName [body, .variable target none, lower, upper]))
    (free : s.functions.get? integralName = none) :
    Meets demands settings levels s lower ∧ Meets demands settings levels s upper ∧
      ∀ low high, evalWithin settings levels s lower = .ok (.number low) →
        evalWithin settings levels s upper = .ok (.number high) →
          ∀ x ∈ samplePoints low high defaultIntervals,
            Meets demands settings levels (s.inherit.bind target (.number x)) body := by
  rw [Meets, free] at h
  dsimp only at h
  rw [if_pos rfl] at h
  exact h body target lower upper rfl

/-- A call of a native function meets the demands in its arguments and in the function. -/
theorem Meets.native (h : Meets demands settings (levels + 1) s (.call name args))
    (free : s.functions.get? name = none) (other : name ≠ integralName) :
    (∀ arg ∈ args, Meets demands settings levels s arg) ∧
      ∀ (native : Native) (numbers : List Decimal), s.natives.get? name = some native →
        args.mapM (fun arg => evalWithin settings levels s arg) = .ok (numbers.map .number) →
          demands.native name native numbers := by
  rw [Meets, free] at h
  dsimp only at h
  rw [if_neg other] at h
  exact h

end

end Expr

/-! ## Values without scales -/

namespace Value

/-- The number that a value is, without its scale. -/
def rat? : Value → Option ℚ
  | number d => some d.toRat
  | symbolic _ => none

variable {v v' w l l' r r' : Value}

/-- Values are akin exactly when they are the same number up to its scale, or both are text. -/
theorem akin_iff : Akin Equals v v' ↔ v'.rat? = v.rat? := by
  constructor
  · rintro (same | _)
    · exact congrArg some same
    · rfl
  · intro same
    cases v with
    | number d =>
      cases v' with
      | number d' => exact .number (Option.some.inj same)
      | symbolic text' => cases same
    | symbolic text =>
      cases v' with
      | number d' => cases same
      | symbolic text' => exact .symbolic text text'

/-- A sign in front of text gives text. -/
theorem withSign_symbolic (sign : Sign) (text : String) :
    ∃ text', (symbolic text).withSign sign = symbolic text' := by
  cases sign with
  | positive => exact ⟨text, rfl⟩
  | negative =>
    simp only [withSign, negate]
    split <;> exact ⟨_, rfl⟩

/-- Akin values stay akin under a sign. -/
theorem Akin.withSign (sign : Sign) (h : Akin Equals v v') :
    Akin Equals (v.withSign sign) (v'.withSign sign) := by
  cases h with
  | number same =>
    cases sign with
    | positive => exact .number same
    | negative => exact .number (Decimal.toRat_neg_congr same)
  | symbolic text text' =>
    obtain ⟨signed, isSigned⟩ := withSign_symbolic sign text
    obtain ⟨signed', isSigned'⟩ := withSign_symbolic sign text'
    rw [isSigned, isSigned']
    exact .symbolic signed signed'

/-- Operators on values that are akin give such values, powers where they depend on the values. -/
theorem extends_combine {op : Operator} (onLeft : Akin Equals l l') (onRight : Akin Equals r r')
    (power : ∀ a b, l = .number a → r = .number b → op = .power → Decimal.PowerByValue a b) :
    Extends (Akin Equals) (l.combine op r) (l'.combine op r') := by
  have lifts := lifts_extends Eq
  cases onLeft with
  | symbolic text text' =>
    rw [combine_symbolic_left, combine_symbolic_left]
    exact lifts.ok (.symbolic _ _)
  | @number a a' sameLeft =>
    cases onRight with
    | symbolic text text' =>
      rw [combine_symbolic_right, combine_symbolic_right]
      exact lifts.ok (.symbolic _ _)
    | @number b b' sameRight =>
      have agree : Extends Equals (op.apply a b) (op.apply a' b') :=
        Operator.agree_apply sameLeft sameRight (power a b rfl rfl)
      exact lifts.map agree fun _ _ => .number

/-- Where a value is asked to be a number, an akin one is an equal number. -/
theorem extends_expectNumber (problem : String → ArithmeticProblem) (h : Akin Equals v v') :
    Extends Equals (v.expectNumber problem) (v'.expectNumber problem) := by
  cases h with
  | number same => exact (lifts_extends Eq).ok same
  | symbolic text text' => exact nofun

/-- Native functions on numbers give numbers. -/
theorem exists_number_of_callNative {settings : Settings} {name : String} {native : Native}
    {numbers : List Decimal} (h : callNative settings name native (numbers.map number) = .ok w) :
    ∃ d, w = number d := by
  rw [callNative, mapM_number?_eq_some.2 rfl] at h
  dsimp only at h
  split at h
  · cases h
  · unfold ofFloat at h
    split at h
    · cases h
    · split at h
      · cases h
        exact ⟨_, rfl⟩
      · cases h

/-- Native functions that depend on the values give values that are akin for such arguments. -/
theorem extends_callNative {settings : Settings} {name : String} {native : Native}
    {values values' : List Value} (h : List.Forall₂ (Akin Equals) values values')
    (byValue : ∀ numbers, values = numbers.map number →
      NativeByValue settings name native numbers) :
    Extends (Akin Equals) (callNative settings name native values)
      (callNative settings name native values') := by
  rcases numbers_of_akin h with ⟨numbers, numbers', rfl, rfl, same⟩ | ⟨text, text'⟩
  · intro w called
    obtain ⟨v, rfl⟩ := exists_number_of_callNative called
    obtain ⟨v', called', equal⟩ := byValue numbers rfl numbers' same v called
    exact ⟨_, called', .number equal⟩
  · rw [callNative, callNative, text, text']
    exact (lifts_extends Eq).ok (.symbolic _ _)

/-- The product of values is that of their numbers, if it is not rounded. -/
theorem rat?_product (h : l.combine .multiply r = .ok w)
    (exact : ∀ a b, l = .number a → r = .number b → a.MultipliesExactly b) :
    w.rat? = Option.map₂ (· * ·) l.rat? r.rat? := by
  cases l with
  | symbolic text =>
    rw [combine_symbolic_left] at h
    cases h
    rfl
  | number a =>
    cases r with
    | symbolic text =>
      rw [combine_symbolic_right] at h
      cases h
      rfl
    | number b =>
      obtain ⟨v, applied, rfl⟩ := combine_numbers_eq_ok.1 h
      exact congrArg some (exact a b rfl rfl v (Decimal.orProblem_eq_ok.1 applied))

end Value

end Reckon
