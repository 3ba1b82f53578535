import Reckon.Proofs.Calculus.Meaning
import Reckon.Proofs.Evaluation.Numbers
import Reckon.Proofs.Evaluation.Reaching

/-!
# Evaluation without rounding

A tree evaluates exactly if all of its parts are numbers and no operation on them rounds. What it
evaluates to depends on the values of the names and not on their scales, and it is found with as many
levels or more. Integrals are taken of samples that are exact.
-/

namespace Reckon

/-! ## Scopes with the same numbers -/

namespace Scope

/-- The second binding is the first one, or both are the same number. -/
def SameBinding (x x' : Option Value) : Prop :=
  x' = x ∨ ∃ d d' : Decimal, x = some (.number d) ∧ x' = some (.number d') ∧ d'.toRat = d.toRat

/-- Equal numbers are the same binding. -/
theorem sameBinding_number {d d' : Decimal} (same : d'.toRat = d.toRat) :
    SameBinding (some (.number d)) (some (.number d')) :=
  .inr ⟨d, d', rfl, rfl, same⟩

/-- What is bound to a number is bound to an equal one in the other scope. -/
theorem SameBinding.exists_number {x x' : Option Value} (h : SameBinding x x') {d : Decimal}
    (bound : x = some (.number d)) : ∃ d' : Decimal, x' = some (.number d') ∧ d'.toRat = d.toRat := by
  rcases h with rfl | ⟨c, d', rfl, rfl, same⟩
  · exact ⟨d, bound, rfl⟩
  · cases bound
    exact ⟨d', rfl, same⟩

/-- The scopes have the same functions and the same bindings, numbers compared by value. -/
structure SameNumbers (s s' : Scope) : Prop where
  functions : s'.functions = s.functions
  natives : s'.natives = s.natives
  bindings : ∀ name, SameBinding (s.binding? name) (s'.binding? name)

namespace SameNumbers

variable {s s' : Scope}

/-- Every scope has the numbers of itself. -/
theorem refl (s : Scope) : s.SameNumbers s :=
  ⟨rfl, rfl, fun _ => .inl rfl⟩

/-- Calls with the same numbers are evaluated in scopes with the same numbers. -/
theorem call (h : s.SameNumbers s') (params : List String) {numbers numbers' : List Decimal}
    (same : List.Forall₂ (fun d d' => d'.toRat = d.toRat) numbers numbers') :
    (s.child.bindAll (params.zip (numbers.map .number))).SameNumbers
      (s'.child.bindAll (params.zip (numbers'.map .number))) where
  functions := h.functions
  natives := h.natives
  bindings := by
    refine Table.get?_insertAll_zip (R := fun _ => SameBinding) (fun _ => .inl rfl) params ?_
    rw [List.forall₂_map_left_iff, List.forall₂_map_right_iff]
    exact same.imp fun _ _ equal _ => sameBinding_number equal

/-- Samples at the same number are taken in scopes with the same numbers. -/
theorem sample (h : s.SameNumbers s') (name : String) {x x' : Decimal} (same : x'.toRat = x.toRat) :
    (s.inherit.bind name (.number x)).SameNumbers (s'.inherit.bind name (.number x')) where
  functions := h.functions
  natives := h.natives
  bindings := by
    intro other
    rw [binding?_bind, binding?_bind]
    split
    · exact sameBinding_number same
    · rw [binding?_inherit, binding?_inherit]
      rcases h.bindings other with equal | ⟨d, d', bound, bound', equal⟩
      · rw [equal]
        exact .inl rfl
      · rw [bound, bound']
        exact sameBinding_number equal

end SameNumbers

end Scope

/-! ## Exact evaluation -/

/-- The operator gives the number without rounding, and a power depends on the values of its operands
only. Small integer powers do so anyway. -/
structure Operator.AppliesExactly (op : Operator) (a b v : Decimal) : Prop where
  applied : op.apply a b = .ok v
  exact : Exact.operate op a.toReal b.toReal = some v.toReal
  byValue : op = .power → b.isSmallInteger = false → Decimal.PowerByValue a b

namespace Operator.AppliesExactly

variable {op : Operator} {a b v : Decimal}

/-- A power that applies exactly depends on the values of its operands. -/
theorem power (h : op.AppliesExactly a b v) (isPower : op = .power) : Decimal.PowerByValue a b := by
  cases small : b.isSmallInteger with
  | true => exact Decimal.powerByValue_of_isSmallInteger a small
  | false => exact h.byValue isPower small

/-- A product that applies exactly is the product of the rationals. -/
theorem product (h : Operator.multiply.AppliesExactly a b v) : v.toRat = a.toRat * b.toRat := by
  have exact : some (a.toReal * b.toReal) = some v.toReal := h.exact
  have real : (a.toRat : ℝ) * b.toRat = v.toRat := Option.some.inj exact
  exact_mod_cast real.symm

/-- A product that is not rounded applies exactly. -/
theorem of_mul? (product : a.mul? b = some v) (exact : a.MultipliesExactly b) :
    Operator.multiply.AppliesExactly a b v where
  applied := by
    rw [Operator.apply, product]
    rfl
  exact := by rw [Exact.operate, exact.toReal product]
  byValue := nofun

end Operator.AppliesExactly

namespace Expr

/-- A condition on an operation: on its operator, its operands and the value of the left one. -/
abbrev OperationCondition : Type := Operator → Expr → Expr → Decimal → Prop

/-- The tree evaluates to the number, all of its parts are numbers, no operation rounds, and every
operation of the tree meets the condition; bodies of functions are evaluated exactly without it.
Native functions are taken to depend on the values of their arguments only, and an integral is taken
of exact samples. Trees with monomials are left to their texts. -/
def EvaluatesExactly (settings : Settings) :
    (levels : Nat) → OperationCondition → Scope → Expr → Decimal → Prop
  | 0, _, _, _, _ => False
  | levels + 1, condition, s, e, v =>
    match e with
    | .number d => d = v
    | .variable name none => s.binding? name = some (.number v)
    | .signed sign operand => ∃ a, EvaluatesExactly settings levels condition s operand a ∧
        (Value.number a).withSign sign = .number v
    | .binary op left right => ∃ a b, EvaluatesExactly settings levels condition s left a ∧
        EvaluatesExactly settings levels condition s right b ∧ op.AppliesExactly a b v ∧
        condition op left right a
    | .call name args =>
      match s.functions.get? name with
      | some f => args.length = f.params.length ∧ ∃ numbers : List Decimal,
          List.Forall₂ (fun arg d => EvaluatesExactly settings levels condition s arg d)
            args numbers ∧
          EvaluatesExactly settings levels (fun _ _ _ _ => True)
            (s.child.bindAll (f.params.zip (numbers.map .number))) f.body v
      | none =>
        (name = integralName ∧ ∃ body target lower upper low high,
          ∃ sample : Decimal → Except Fault Decimal,
          args = [body, plain target, lower, upper] ∧
          EvaluatesExactly settings levels condition s lower low ∧
          EvaluatesExactly settings levels condition s upper high ∧
          (∀ x y, sample x = .ok y → EvaluatesExactly settings levels condition
            (s.inherit.bind target (.number x)) body y) ∧
          simpson low high defaultIntervals sample = .ok v) ∨
        (name ≠ integralName ∧ ∃ native, ∃ numbers : List Decimal,
          s.natives.get? name = some native ∧
          List.Forall₂ (fun arg d => EvaluatesExactly settings levels condition s arg d)
            args numbers ∧
          NativeByValue settings name native numbers ∧
          Value.callNative settings name native (numbers.map .number) = .ok (.number v))
    | _ => False

/-- A tree that evaluates exactly evaluates to the same number wherever the names have the same
values. -/
theorem reaches_of_evaluatesExactly {settings : Settings} {levels : Nat}
    {condition : OperationCondition} {s s' : Scope} {e : Expr} {v : Decimal}
    (h : EvaluatesExactly settings levels condition s e v) (same : s.SameNumbers s') :
    e.Reaches settings.angle s' levels v := by
  induction levels generalizing condition s s' e v with
  | zero => exact h.elim
  | succ levels ih =>
    cases e with
    | number d =>
      cases (h : d = v)
      exact (reaches_number rfl).mono (Nat.le_add_left 1 levels)
    | «variable» name term =>
      cases term with
      | some term => exact h.elim
      | none =>
        obtain ⟨d, bound, equal⟩ := (same.bindings name).exists_number h
        exact (reaches_plain bound equal).mono (Nat.le_add_left 1 levels)
    | signed sign operand =>
      obtain ⟨a, inner, result⟩ := h
      exact (ih inner same).signed result
    | binary op left right =>
      obtain ⟨a, b, onLeft, onRight, applies, _⟩ := h
      exact (ih onLeft same).binary (ih onRight same) applies.power applies.applied
    | vector items => exact h.elim
    | matrix columns => exact h.elim
    | definition name params body => exact h.elim
    | call name args =>
      rw [EvaluatesExactly] at h
      split at h
      · next f found =>
        obtain ⟨arity, numbers, given, body⟩ := h
        refine reaches_user (by rw [same.functions, found]) arity
          (given.imp fun _ _ value => ih value same) fun numbers' equals => ?_
        exact ih body (same.call f.params equals)
      · next free =>
        have free' : s'.functions.get? name = none := by rw [same.functions, free]
        rcases h with ⟨rfl, body, target, lower, upper, low, high, sample, rfl, atLower, atUpper,
          samples, area⟩ | ⟨other, native, numbers, known, given, byValue, called⟩
        · exact reaches_integral free' (ih atLower same) (ih atUpper same)
            (fun x y value x' point => ih (samples x y value) (same.sample target point)) area
        · exact reaches_native free' other (by rw [same.natives, known])
            (given.imp fun _ _ value => ih value same) byValue called

end Expr

end Reckon
