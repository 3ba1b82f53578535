import Reckon.Proofs.Comparison
import Reckon.Proofs.Evaluation.Steps

/-!
# Numbers stay numbers

A number is computed from numbers only. When names without a binding get one, what was a number
before is the same number then, provided there still is a value: text that was dropped on the way
may have become a fault.
-/

namespace Reckon

/-! ## Scopes that agree on numbers -/

/-- If the first value is a number, then the second one is that number. -/
def Value.Stays (w w' : Value) : Prop :=
  ∀ d, w = .number d → w' = .number d

/-- A relation between what two scopes bind to one name, kept by binding related values. -/
theorem Table.get?_insertAll_zip {α β : Type} {R : String → Option α → Option β → Prop}
    {t : Table α} {t' : Table β} (h : ∀ name, R name (t.get? name) (t'.get? name))
    (params : List String) {values : List α} {values' : List β}
    (related : List.Forall₂ (fun v v' => ∀ name, R name (some v) (some v')) values values') :
    ∀ name, R name ((t.insertAll (params.zip values)).get? name)
      ((t'.insertAll (params.zip values')).get? name) := by
  induction params generalizing t t' values values' with
  | nil => exact h
  | cons param params ih =>
    cases related with
    | nil => exact h
    | cons first others =>
      refine ih (fun name => ?_) others
      rw [get?_insert, get?_insert]
      split
      · exact first name
      · exact h name

namespace Scope

/-- The second scope does not bind the name of a constant anew, and what it binds to a name is the
number that the first one binds to it, if it binds a number. -/
def Keeps (name : String) (x x' : Option Value) : Prop :=
  ((constants.get? name).isSome → x = none → x' = none) ∧
    ∀ d, x = some (.number d) → x' = some (.number d)

/-- The second scope has the functions of the first one and keeps all its numbers. -/
structure NumbersStay (s s' : Scope) : Prop where
  functions : s'.functions = s.functions
  natives : s'.natives = s.natives
  keeps : ∀ name, Keeps name (s.binding? name) (s'.binding? name)

/-- A binding that stays keeps its number. -/
theorem keeps_some {w w' : Value} (h : w.Stays w') (name : String) :
    Keeps name (some w) (some w') := by
  refine ⟨fun _ => nofun, fun d same => ?_⟩
  rw [h d (Option.some.inj same)]

/-- Every constant keeps its number. -/
theorem keeps_constants (name : String) :
    Keeps name (constants.get? name) (constants.get? name) :=
  ⟨fun _ => id, fun _ => id⟩

namespace NumbersStay

variable {s s' : Scope}

/-- The scope of a call keeps numbers if the arguments do. -/
theorem call (h : s.NumbersStay s') (params : List String) {values values' : List Value}
    (related : List.Forall₂ Value.Stays values values') :
    (s.child.bindAll (params.zip values)).NumbersStay
      (s'.child.bindAll (params.zip values')) where
  functions := h.functions
  natives := h.natives
  keeps := Table.get?_insertAll_zip keeps_constants params (related.imp fun _ _ => keeps_some)

/-- The scope of a sample keeps numbers. The constants are not bound anew in it, because they are
visible already. -/
theorem sample (h : s.NumbersStay s') (name : String) (x : Decimal) :
    (s.inherit.bind name (.number x)).NumbersStay (s'.inherit.bind name (.number x)) where
  functions := h.functions
  natives := h.natives
  keeps := by
    intro other
    rw [binding?_bind, binding?_bind]
    split
    · exact keeps_some (fun _ => id) other
    · have bound := h.keeps other
      rw [binding?_inherit, binding?_inherit]
      cases own : s.binding? other with
      | some w =>
        rw [own] at bound
        refine ⟨fun _ => nofun, fun d same => ?_⟩
        rw [bound.2 d same]
        rfl
      | none =>
        rw [own] at bound
        refine ⟨fun isConstant free => ?_, fun d same => ?_⟩
        · rw [show constants.get? other = none from free] at isConstant
          cases isConstant
        · have constant : constants.get? other = some (.number d) := same
          have free := bound.1 (by rw [constant]; rfl) rfl
          rw [free]
          exact constant

end NumbersStay

end Scope

/-! ## Evaluation -/

/-- Two evaluations of a list give related values if they do so entry by entry. -/
theorem forall₂_of_mapM {α β : Type} {R : β → β → Prop} {f g : α → Except Fault β} {as : List α}
    (h : ∀ a ∈ as, ∀ v v', f a = .ok v → g a = .ok v' → R v v') {values values' : List β}
    (first : as.mapM f = .ok values) (second : as.mapM g = .ok values') :
    List.Forall₂ R values values' := by
  induction as generalizing values values' with
  | nil =>
    rw [mapM_nil_eq_ok.1 first, mapM_nil_eq_ok.1 second]
    exact .nil
  | cons a as ih =>
    obtain ⟨v, vs, hv, hvs, rfl⟩ := mapM_cons_eq_ok.1 first
    obtain ⟨v', vs', hv', hvs', rfl⟩ := mapM_cons_eq_ok.1 second
    have others := ih (fun other mem => h other (List.mem_cons_of_mem a mem)) hvs hvs'
    exact .cons (h a List.mem_cons_self v v' hv hv') others

namespace Value

/-- A value that stays does so under a sign. -/
theorem stays_withSign {w w' : Value} (h : w.Stays w') (sign : Sign) :
    (w.withSign sign).Stays (w'.withSign sign) := by
  intro d same
  obtain ⟨c, rfl, rfl⟩ := withSign_eq_number.1 same
  exact withSign_eq_number.2 ⟨c, h c rfl, rfl⟩

/-- An operation on values that stay gives a value that stays. -/
theorem stays_combine {op : Operator} {l l' r r' w w' : Value} (hl : l.Stays l') (hr : r.Stays r')
    (first : l.combine op r = .ok w) (second : l'.combine op r' = .ok w') : w.Stays w' := by
  intro d same
  subst same
  obtain ⟨a, b, rfl, rfl, applied⟩ := combine_eq_number.1 first
  have again := combine_eq_number.2 ⟨a, b, hl a rfl, hr b rfl, applied⟩
  rw [second] at again
  exact Except.ok.inj again

/-- Arguments that are numbers and stay are those numbers. -/
theorem eq_map_number_of_stays {numbers : List Decimal} {values' : List Value}
    (h : List.Forall₂ Stays (numbers.map number) values') : values' = numbers.map number := by
  induction numbers generalizing values' with
  | nil =>
    cases h
    rfl
  | cons d numbers ih =>
    cases h with
    | cons first others => rw [first d rfl, ih others, List.map_cons]

/-- A native function gives a number only for numbers. -/
theorem callNative_eq_number {settings : Settings} {name : String} {native : Native}
    {args : List Value} {d : Decimal} (h : callNative settings name native args = .ok (number d)) :
    ∃ numbers : List Decimal, args = numbers.map number := by
  unfold callNative at h
  split at h
  · cases h
  · next numbers found => exact ⟨numbers, mapM_number?_eq_some.1 found⟩

/-- A native call on values that stay gives a value that stays. -/
theorem stays_callNative {settings : Settings} {name : String} {native : Native}
    {values values' : List Value} {w w' : Value} (h : List.Forall₂ Stays values values')
    (first : callNative settings name native values = .ok w)
    (second : callNative settings name native values' = .ok w') : w.Stays w' := by
  intro d same
  subst same
  obtain ⟨numbers, rfl⟩ := callNative_eq_number first
  rw [eq_map_number_of_stays h, first] at second
  exact (Except.ok.inj second).symm

end Value

/-- A variable stays what it is where the scope keeps its numbers. -/
theorem Scope.stays_valueOf {s s' : Scope} (h : s.NumbersStay s') {name : String}
    {term : Option Monomial} {w w' : Value} (first : s.valueOf name term = .ok w)
    (second : s'.valueOf name term = .ok w') : w.Stays w' := by
  have kept := (h.keeps name).2
  intro d same
  subst same
  unfold Scope.valueOf at first second
  cases own : s.binding? name with
  | none => cases term <;> simp [own] at first
  | some value =>
    cases value with
    | symbolic text => cases term <;> simp [own, Monomial.apply] at first
    | number c =>
      rw [kept c own] at second
      rw [own] at first
      rw [first] at second
      exact (Except.ok.inj second).symm

namespace Expr

/-- Two integrals over samples that stay have the same area. -/
theorem stays_integrateWith {s s' : Scope} {eval : Scope → Except Fault Value} {name : String}
    {low high area area' : Decimal}
    (h : ∀ x w w', eval (s.inherit.bind name (.number x)) = .ok w →
      eval (s'.inherit.bind name (.number x)) = .ok w' → w.Stays w')
    (first : integrateWith eval s name low high = .ok area)
    (second : integrateWith eval s' name low high = .ok area') : area = area' := by
  refine (lifts_compatible Eq).simpson (fun _ => rfl) keptByArithmetic_eq ?_ rfl rfl area area'
    first second
  rintro x _ _ rfl v v'
  cases here : eval (s.inherit.bind name (.number x)) with
  | error fault => exact nofun
  | ok w =>
    cases there : eval (s'.inherit.bind name (.number x)) with
    | error fault => exact fun _ => nofun
    | ok w' =>
      intro isNumber isNumber'
      rw [Value.expectNumber_eq_ok] at isNumber isNumber'
      have same := h x w w' here there v isNumber
      rw [isNumber'] at same
      exact (Value.number.inj same).symm

/-- A call that evaluates to a number keeps its value when more names are bound, if that holds of
every tree with one level less. -/
theorem stays_call {settings : Settings} {levels : Nat} {s s' : Scope} {name : String}
    {args : List Expr} {w w' : Value}
    (ih : ∀ s s', s.NumbersStay s' → ∀ e w w', evalWithin settings levels s e = .ok w →
      evalWithin settings levels s' e = .ok w' → w.Stays w') (h : s.NumbersStay s')
    (first : evalWithin settings (levels + 1) s (.call name args) = .ok w)
    (second : evalWithin settings (levels + 1) s' (.call name args) = .ok w') : w.Stays w' := by
  cases user : s.functions.get? name with
  | some f =>
    have user' : s'.functions.get? name = some f := by rw [h.functions, user]
    obtain ⟨_, values, given, result⟩ := (evalWithin_user_eq_ok user).1 first
    obtain ⟨_, values', given', result'⟩ := (evalWithin_user_eq_ok user').1 second
    have args := forall₂_of_mapM (fun _ _ _ _ => ih _ _ h _ _ _) given given'
    exact ih _ _ (h.call f.params args) _ _ _ result result'
  | none =>
    have user' : s'.functions.get? name = none := by rw [h.functions, user]
    by_cases integral : name = integralName
    · subst integral
      rw [evalWithin_integral user, integralForm_eq_ok] at first
      rw [evalWithin_integral user', integralForm_eq_ok] at second
      obtain ⟨body, target, lower, upper, low, high, area, rfl, atLow, atHigh, found, rfl⟩ := first
      obtain ⟨_, _, _, _, low', high', area', same, atLow', atHigh', found', rfl⟩ := second
      cases same
      have lows := ih _ _ h _ _ _ atLow atLow' low rfl
      have highs := ih _ _ h _ _ _ atHigh atHigh' high rfl
      cases lows
      cases highs
      rw [stays_integrateWith (fun x => ih _ _ (h.sample target x) body) found found']
      exact fun _ => id
    · obtain ⟨native, values, known, given, called⟩ :=
        (evalWithin_native_eq_ok user integral).1 first
      obtain ⟨native', values', known', given', called'⟩ :=
        (evalWithin_native_eq_ok user' integral).1 second
      rw [h.natives, known] at known'
      cases known'
      exact Value.stays_callNative (forall₂_of_mapM (fun _ _ _ _ => ih _ _ h _ _ _) given given')
        called called'

/-- What evaluates to a number keeps its value when more names are bound, if it has one. -/
theorem stays_evalWithin {settings : Settings} {levels : Nat} {s s' : Scope} (h : s.NumbersStay s')
    {e : Expr} {w w' : Value} (first : evalWithin settings levels s e = .ok w)
    (second : evalWithin settings levels s' e = .ok w') : w.Stays w' := by
  induction levels generalizing s s' e w w' with
  | zero => exact absurd first evalWithin_zero_ne_ok
  | succ levels ih =>
    cases e with
    | number d =>
      rw [evalWithin_number_eq_ok] at first second
      rw [first, second]
      exact fun _ => id
    | «variable» name term =>
      rw [evalWithin_variable] at first second
      exact Scope.stays_valueOf h first second
    | signed sign e =>
      obtain ⟨v, value, rfl⟩ := evalWithin_signed_eq_ok.1 first
      obtain ⟨v', value', rfl⟩ := evalWithin_signed_eq_ok.1 second
      exact Value.stays_withSign (ih h value value') sign
    | binary op left right =>
      obtain ⟨l, r, hl, hr, combined⟩ := evalWithin_binary_eq_ok.1 first
      obtain ⟨l', r', hl', hr', combined'⟩ := evalWithin_binary_eq_ok.1 second
      exact Value.stays_combine (ih h hl hl') (ih h hr hr') combined combined'
    | vector items => exact absurd first evalWithin_vector_ne_ok
    | matrix columns => exact absurd first evalWithin_matrix_ne_ok
    | definition name params body => exact absurd first evalWithin_definition_ne_ok
    | call name args => exact stays_call (fun _ _ h _ _ _ => ih h) h first second

end Expr

end Reckon
