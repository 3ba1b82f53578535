import Reckon.Proofs.Decimal.Operators
import Reckon.Proofs.Evaluation.Numbers
import Reckon.Proofs.Evaluation.SideBySide

/-!
# Scales of numbers

Equal numbers may differ in scale, as 1.50 and 1.5 do. Text does not show the difference and
arithmetic keeps to the values, but powers with fractions or large exponents and native functions
may tell the scales apart. What evaluation asks of them is said here for any relation between
numbers that arithmetic keeps, so that it is nothing where the numbers are the same.
-/

namespace Reckon

/-- The faults are of one kind. Where the kind is that a limit was exceeded, it is the same limit.
-/
def Fault.SameKind (f f' : Fault) : Prop :=
  f.ctorIdx = f'.ctorIdx ∧ ∀ limit, f = .depthExceeded limit ↔ f' = .depthExceeded limit

/-- A fault is of its own kind. -/
theorem Fault.sameKind_refl (f : Fault) : f.SameKind f :=
  ⟨rfl, fun _ => Iff.rfl⟩

/-- Two problems of arithmetic are of one kind, whatever their texts. -/
theorem Fault.sameKind_arithmetic (problem problem' : ArithmeticProblem) :
    (Fault.arithmetic problem).SameKind (.arithmetic problem') :=
  ⟨rfl, fun _ => ⟨nofun, nofun⟩⟩

/-! ## Numbers -/

/-- Powers of related numbers are related, or they fail alike. -/
def Decimal.PowerRespects (D : Decimal → Decimal → Prop) (base exponent : Decimal) : Prop :=
  ∀ base' exponent' : Decimal, D base base' → D exponent exponent' →
    Matches Fault.SameKind D (base.power exponent) (base'.power exponent')

/-- Powers of the same numbers are the same. -/
theorem powerRespects_eq (base exponent : Decimal) : Decimal.PowerRespects Eq base exponent := by
  rintro _ _ rfl rfl
  exact (lifts_matches _).refl Fault.sameKind_refl (fun _ => rfl) _

/-- A relation between equal numbers that all operators keep but for powers that are not of small
integer exponent. -/
structure RelatesNumbers (D : Decimal → Decimal → Prop) : Prop extends KeptByArithmetic D where
  equals : ∀ {d d' : Decimal}, D d d' → d.Equals d'
  neg : ∀ {d d' : Decimal}, D d d' → D d.neg d'.neg
  operator : ∀ {op : Operator} {a a' b b' : Decimal}, D a a' → D b b' →
    (op = .power → Matches Fault.SameKind D (a.power b) (a'.power b')) →
      Matches Fault.SameKind D (op.apply a b) (op.apply a' b')
  smallPower : ∀ {base exponent : Decimal}, exponent.isSmallInteger = true →
    Decimal.PowerRespects D base exponent

/-- Sameness is a relation that all operators keep. -/
theorem relatesNumbers_eq : RelatesNumbers Eq where
  toKeptByArithmetic := keptByArithmetic_eq
  equals same := congrArg Decimal.toRat same.symm
  neg same := congrArg Decimal.neg same
  operator := by
    rintro op a _ b _ rfl rfl -
    exact (lifts_matches _).refl Fault.sameKind_refl (fun _ => rfl) _
  smallPower _ := powerRespects_eq _ _

/-- Equality by value is a relation that all operators keep, powers of other than small integer
exponents apart. -/
theorem relatesNumbers_equals : RelatesNumbers Decimal.Equals where
  toKeptByArithmetic := keptByArithmetic_equals
  equals := id
  neg same := Decimal.toRat_neg_congr same
  operator ha hb power :=
    (lifts_matches _).operator Fault.sameKind_arithmetic ha hb power
  smallPower small _ _ hb he :=
    (lifts_matches _).power_of_isSmallInteger Fault.sameKind_arithmetic small hb he

section

variable {D : Decimal → Decimal → Prop}

/-! ## Values -/

namespace Value

/-- The values are related numbers or the same text. -/
inductive Related (D : Decimal → Decimal → Prop) : Value → Value → Prop where
  | number {d d' : Decimal} (same : D d d') : Related D (.number d) (.number d')
  | symbolic (text : String) : Related D (.symbolic text) (.symbolic text)

/-- The values are related numbers, or both are text. -/
inductive Akin (D : Decimal → Decimal → Prop) : Value → Value → Prop where
  | number {d d' : Decimal} (same : D d d') : Akin D (.number d) (.number d')
  | symbolic (text text' : String) : Akin D (.symbolic text) (.symbolic text')

/-- The values are equal numbers or the same text. -/
def Alike (v v' : Value) : Prop :=
  Related Decimal.Equals v v'

/-- A value is related to itself. -/
theorem related_refl (refl : ∀ d, D d d) (v : Value) : Related D v v := by
  cases v with
  | number d => exact .number (refl d)
  | symbolic text => exact .symbolic text

/-- A value is akin to itself. -/
theorem akin_refl (refl : ∀ d, D d d) (v : Value) : Akin D v v := by
  cases v with
  | number d => exact .number (refl d)
  | symbolic text => exact .symbolic text text

/-- Related values are akin: both are numbers or both are text. -/
theorem Related.akin {v v' : Value} (related : Related D v v') : Akin D v v' := by
  cases related with
  | number same => exact .number same
  | symbolic text => exact .symbolic text text

/-- Text does not show scales. -/
theorem Related.render_eq (h : RelatesNumbers D) {v v' : Value} (related : Related D v v') :
    v'.render = v.render := by
  cases related with
  | number same => exact congrArg Decimal.text (Decimal.normalize_congr (h.equals same))
  | symbolic text => rfl

/-- Values with related numbers are alike, since related numbers are equal. -/
theorem Related.alike (h : RelatesNumbers D) {v v' : Value} (related : Related D v v') :
    Alike v v' := by
  cases related with
  | number same => exact .number (h.equals same)
  | symbolic text => exact .symbolic text

end Value

open Value (Related related_refl)

/-- Relating numbers and keeping texts is a relation of values that evaluation keeps. -/
theorem relatesValues_related (h : RelatesNumbers D) : RelatesValues D (Related D) where
  number := .number
  cases related := by
    cases related with
    | number same => exact .inr ⟨_, _, rfl, rfl, same⟩
    | symbolic text => exact .inl ⟨text, rfl, rfl⟩
  withSign sign related := by
    cases related with
    | number same =>
      cases sign with
      | positive => exact .number same
      | negative => exact .number (h.neg same)
    | symbolic text =>
      cases sign with
      | positive => exact .symbolic text
      | negative =>
        simp only [Value.withSign, Value.negate]
        split <;> exact .symbolic _

/-- Operators on related values give related values, or they fail alike. -/
theorem RelatesNumbers.combine (h : RelatesNumbers D) {op : Operator} {l l' r r' : Value}
    (hl : Related D l l') (hr : Related D r r')
    (power : op = .power → ∀ base exponent, l = .number base → r = .number exponent →
      exponent.isSmallInteger = false → Decimal.PowerRespects D base exponent) :
    Matches Fault.SameKind (Related D) (l.combine op r) (l'.combine op r') := by
  have composed : ∀ {v v' w w' : Value}, Related D v v' → Related D w w' →
      Related D (.symbolic ("(" ++ v.render ++ " " ++ op.symbol ++ " " ++ w.render ++ ")"))
        (.symbolic ("(" ++ v'.render ++ " " ++ op.symbol ++ " " ++ w'.render ++ ")")) := by
    intro v v' w w' first second
    rw [first.render_eq h, second.render_eq h]
    exact .symbolic _
  have texts := composed hl hr
  cases hl with
  | symbolic text =>
    rw [Value.combine_symbolic_left, Value.combine_symbolic_left]
    exact .ok texts
  | @number a a' sameLeft =>
    cases hr with
    | symbolic text =>
      rw [Value.combine_symbolic_right, Value.combine_symbolic_right]
      exact .ok texts
    | @number b b' sameRight =>
      refine (lifts_matches _).map (h.operator sameLeft sameRight fun isPower => ?_)
        fun _ _ => .number
      cases small : b.isSmallInteger with
      | true => exact h.smallPower small a' b' sameLeft sameRight
      | false => exact power isPower a b rfl rfl small a' b' sameLeft sameRight

/-! ## Native functions -/

/-- The native function gives related values for related numbers, or it fails alike. -/
def NativeRespects (D : Decimal → Decimal → Prop) (settings : Settings) (name : String)
    (native : Native) (numbers : List Decimal) : Prop :=
  ∀ numbers' : List Decimal, List.Forall₂ D numbers numbers' →
    Matches Fault.SameKind (Related D)
      (Value.callNative settings name native (numbers.map .number))
      (Value.callNative settings name native (numbers'.map .number))

/-- Values that are akin are related numbers, or there is text among both. -/
theorem numbers_of_akin {values values' : List Value}
    (h : List.Forall₂ (Value.Akin D) values values') :
    (∃ numbers numbers', values = numbers.map .number ∧ values' = numbers'.map .number ∧
        List.Forall₂ D numbers numbers') ∨
      values.mapM Value.number? = none ∧ values'.mapM Value.number? = none := by
  induction h with
  | nil => exact .inl ⟨[], [], rfl, rfl, .nil⟩
  | cons first others ih =>
    cases first with
    | symbolic text text' => exact .inr ⟨rfl, rfl⟩
    | @number d d' same =>
      rcases ih with ⟨numbers, numbers', rfl, rfl, related⟩ | ⟨missing, missing'⟩
      · exact .inl ⟨d :: numbers, d' :: numbers', rfl, rfl, .cons same related⟩
      · refine .inr ⟨?_, ?_⟩
        · rw [List.mapM_cons, missing]
          rfl
        · rw [List.mapM_cons, missing']
          rfl

/-- A native call gives related values for related arguments, as long as the function does not tell
related numbers apart. -/
theorem RelatesNumbers.callNative (h : RelatesNumbers D) {settings : Settings} {name : String}
    {native : Native} {values values' : List Value}
    (related : List.Forall₂ (Related D) values values')
    (respects : ∀ numbers, values = numbers.map .number →
      NativeRespects D settings name native numbers) :
    Matches Fault.SameKind (Related D) (Value.callNative settings name native values)
      (Value.callNative settings name native values') := by
  rcases numbers_of_akin (related.imp fun _ _ => Related.akin) with
    ⟨numbers, numbers', rfl, rfl, same⟩ | ⟨text, text'⟩
  · exact respects numbers rfl numbers' same
  · have texts : values'.map Value.render = values.map Value.render := by
      rw [← List.forall₂_eq_eq_eq, List.forall₂_map_left_iff, List.forall₂_map_right_iff]
      exact related.flip.imp fun _ _ same => same.render_eq h
    rw [Value.callNative, Value.callNative, text, text']
    dsimp only
    rw [texts]
    exact .ok (.symbolic _)

/-! ## Scopes -/

/-- The scopes have the same functions, and the values of a name correspond. -/
structure Scope.Corresponds (V : Value → Value → Prop) (s s' : Scope) : Prop where
  functions : s'.functions = s.functions
  natives : s'.natives = s.natives
  bindings : ∀ name, Option.Rel V (s.binding? name) (s'.binding? name)

namespace Scope.Corresponds

variable {V : Value → Value → Prop} {s s' : Scope}

/-- A scope corresponds to itself. -/
theorem refl (h : ∀ v, V v v) (s : Scope) : s.Corresponds V s :=
  ⟨rfl, rfl, fun _ => optionRel_refl h _⟩

/-- Scopes still correspond when a call binds parameters to arguments that do. -/
theorem call (scopes : s.Corresponds V s') (h : ∀ v, V v v) (params : List String)
    {values values' : List Value} (same : List.Forall₂ V values values') :
    (s.child.bindAll (params.zip values)).Corresponds V
      (s'.child.bindAll (params.zip values')) where
  functions := scopes.functions
  natives := scopes.natives
  bindings :=
    Table.get?_insertAll_zip (R := fun _ => Option.Rel V) (fun _ => optionRel_refl h _) params
      (same.imp fun _ _ equal _ => .some equal)

/-- Scopes still correspond when an integral binds its variable to samples that do. -/
theorem sample (scopes : s.Corresponds V s') (h : ∀ v, V v v) (name : String) {x x' : Value}
    (same : V x x') :
    (s.inherit.bind name x).Corresponds V (s'.inherit.bind name x') where
  functions := scopes.functions
  natives := scopes.natives
  bindings := by
    intro other
    rw [binding?_bind, binding?_bind]
    split
    · exact .some same
    · rw [binding?_inherit, binding?_inherit]
      have bindings := scopes.bindings other
      generalize s.binding? other = x at bindings ⊢
      generalize s'.binding? other = x' at bindings ⊢
      cases bindings with
      | none => exact optionRel_refl h _
      | some equal => exact .some equal

end Scope.Corresponds

/-- The scopes have the same functions and bind related values to all names. -/
structure Scope.RelatedBy (D : Decimal → Decimal → Prop) (s s' : Scope) : Prop where
  functions : s'.functions = s.functions
  natives : s'.natives = s.natives
  bindings : ∀ name, Option.Rel (Related D) (s.binding? name) (s'.binding? name)

namespace Scope.RelatedBy

variable {s s' : Scope}

/-- Scopes with related bindings correspond. -/
theorem corresponds (related : s.RelatedBy D s') : s.Corresponds (Related D) s' :=
  ⟨related.functions, related.natives, related.bindings⟩

/-- Scopes that correspond by related values have related bindings. -/
theorem of_corresponds (scopes : s.Corresponds (Related D) s') : s.RelatedBy D s' :=
  ⟨scopes.functions, scopes.natives, scopes.bindings⟩

/-- A scope is related to itself. -/
theorem refl (h : RelatesNumbers D) (s : Scope) : s.RelatedBy D s :=
  of_corresponds (.refl (related_refl h.refl) s)

/-- Scopes stay related when a call binds parameters to related arguments. -/
theorem call (related : s.RelatedBy D s') (h : RelatesNumbers D) (params : List String)
    {values values' : List Value} (same : List.Forall₂ (Related D) values values') :
    (s.child.bindAll (params.zip values)).RelatedBy D
      (s'.child.bindAll (params.zip values')) :=
  of_corresponds (related.corresponds.call (related_refl h.refl) params same)

/-- Scopes stay related when an integral binds its variable to related samples. -/
theorem sample (related : s.RelatedBy D s') (h : RelatesNumbers D) (name : String)
    {x x' : Decimal} (same : D x x') :
    (s.inherit.bind name (.number x)).RelatedBy D (s'.inherit.bind name (.number x')) :=
  of_corresponds (related.corresponds.sample (related_refl h.refl) name (.number same))

end Scope.RelatedBy

/-- A monomial of a number is a product with a power. -/
theorem Monomial.apply_number (term : Monomial) (base : Decimal) :
    term.apply (.number base) = base.power term.exponent >>= fun power =>
      Operator.multiply.apply term.coefficient power >>= fun d => .ok (.number d) := by
  rw [Monomial.apply]
  cases base.power term.exponent with
  | error fault => rfl
  | ok power =>
    dsimp only [bind, Except.bind]
    cases Operator.multiply.apply term.coefficient power <;> rfl

/-- Related scopes give a variable related values, or it fails alike in them. -/
theorem Scope.RelatedBy.valueOf {s s' : Scope} (related : s.RelatedBy D s') (h : RelatesNumbers D)
    {name : String} {term : Option Monomial}
    (power : ∀ t base, term = some t → s.binding? name = some (.number base) →
      t.exponent.isSmallInteger = false → Decimal.PowerRespects D base t.exponent) :
    Matches Fault.SameKind (Related D) (s.valueOf name term) (s'.valueOf name term) := by
  have lifts := lifts_matches Fault.SameKind
  have bindings := related.bindings name
  unfold Scope.valueOf
  generalize s.binding? name = x at bindings power
  generalize s'.binding? name = x' at bindings
  cases bindings with
  | none => cases term <;> exact .ok (.symbolic _)
  | some same =>
    cases term with
    | none => exact .ok same
    | some t =>
      cases same with
      | symbolic text => exact .ok (.symbolic _)
      | @number d d' equal =>
        have powers : Matches Fault.SameKind D (d.power t.exponent) (d'.power t.exponent) := by
          cases small : t.exponent.isSmallInteger with
          | true => exact h.smallPower small _ _ equal (h.refl _)
          | false => exact power t d rfl rfl small _ _ equal (h.refl _)
        dsimp only
        rw [Monomial.apply_number, Monomial.apply_number]
        refine lifts.bind powers fun a a' _ _ sameBase => ?_
        exact lifts.bind (h.operator (h.refl _) sameBase nofun) fun _ _ _ _ product =>
          .ok (.number product)

/-- A native function gives one result for the same numbers. -/
theorem nativeRespects_eq (settings : Settings) (name : String) (native : Native)
    (numbers : List Decimal) : NativeRespects Eq settings name native numbers := by
  intro numbers' same
  rw [List.forall₂_eq_eq_eq] at same
  rw [same]
  exact (lifts_matches _).refl Fault.sameKind_refl (related_refl fun _ => rfl) _

end

/-! ## Trees -/

/-- The powers and native calls that the evaluation of a tree takes do not tell related numbers
apart, whatever number the variable of an integral is. Powers with small integer exponents never
do. -/
def Expr.RespectsNumbers (D : Decimal → Decimal → Prop) (settings : Settings) :
    (levels : Nat) → Scope → Expr → Prop
  | 0, _, _ => True
  | levels + 1, s, e =>
    match e with
    | .number _ => True
    | .variable name term => ∀ t base, term = some t → s.binding? name = some (.number base) →
        t.exponent.isSmallInteger = false → Decimal.PowerRespects D base t.exponent
    | .signed _ operand => RespectsNumbers D settings levels s operand
    | .binary op left right =>
      RespectsNumbers D settings levels s left ∧ RespectsNumbers D settings levels s right ∧
        (op = .power → ∀ base exponent, evalWithin settings levels s left = .ok (.number base) →
          evalWithin settings levels s right = .ok (.number exponent) →
            exponent.isSmallInteger = false → Decimal.PowerRespects D base exponent)
    | .call name args =>
      match s.functions.get? name with
      | some f =>
        (∀ arg ∈ args, RespectsNumbers D settings levels s arg) ∧
          ∀ values, args.mapM (fun arg => evalWithin settings levels s arg) = .ok values →
            RespectsNumbers D settings levels (s.child.bindAll (f.params.zip values)) f.body
      | none =>
        if name = integralName then
          ∀ body target lower upper, args = [body, .variable target none, lower, upper] →
            RespectsNumbers D settings levels s lower ∧
              RespectsNumbers D settings levels s upper ∧
                ∀ x, RespectsNumbers D settings levels (s.inherit.bind target (.number x)) body
        else
          (∀ arg ∈ args, RespectsNumbers D settings levels s arg) ∧
            ∀ (native : Native) (numbers : List Decimal), s.natives.get? name = some native →
              args.mapM (fun arg => evalWithin settings levels s arg) =
                  .ok (numbers.map .number) →
                NativeRespects D settings name native numbers
    | .vector _ => True
    | .matrix _ => True
    | .definition _ _ _ => True

/-- Nothing tells a number apart from itself. -/
theorem Expr.respectsNumbers_eq (settings : Settings) (levels : Nat) (s : Scope) (e : Expr) :
    e.RespectsNumbers Eq settings levels s := by
  induction levels generalizing s e with
  | zero => trivial
  | succ levels ih =>
    cases e with
    | «variable» name term => exact fun t base _ _ _ => powerRespects_eq base t.exponent
    | signed sign operand => exact ih s operand
    | binary op left right =>
      exact ⟨ih s left, ih s right, fun _ base exponent _ _ _ => powerRespects_eq base exponent⟩
    | call name args =>
      rw [RespectsNumbers]
      cases s.functions.get? name with
      | some f => exact ⟨fun arg _ => ih s arg, fun values _ => ih _ f.body⟩
      | none =>
        dsimp only
        split
        · exact fun body target lower upper _ => ⟨ih s lower, ih s upper, fun x => ih _ body⟩
        · exact ⟨fun arg _ => ih s arg, fun native numbers _ _ => nativeRespects_eq _ _ _ _⟩
    | _ => trivial

end Reckon
