import Reckon.Proofs.Evaluation.Scoping
import Reckon.Proofs.Syntax.Parts

/-!
# The variable of an integral

An integral binds its variable. Under another name, which must not occur in the body, it has the
same outcome, also if integrals in the body take the same variable again; and what the variable is
bound to where the integral stands does not come into it, unless a bound mentions it.
-/

namespace Reckon

namespace Expr

/-! ## Renaming -/

/-- A name, or the other name in place of the first one. -/
def renamed (x z name : String) : String :=
  if name = x then z else name

mutual

/-- The tree with all variables of one name under another name. Functions and parameters keep their
names. -/
def rename (x z : String) : Expr → Expr
  | .number value => .number value
  | .variable name term => .variable (renamed x z name) term
  | .signed sign operand => .signed sign (operand.rename x z)
  | .binary op left right => .binary op (left.rename x z) (right.rename x z)
  | .vector items => .vector (renameAll x z items)
  | .matrix columns => .matrix (renameAll x z columns)
  | .definition name params body => .definition name params (body.rename x z)
  | .call name args => .call name (renameAll x z args)

/-- Some trees with all variables of one name under another name. -/
def renameAll (x z : String) : List Expr → List Expr
  | [] => []
  | e :: es => e.rename x z :: renameAll x z es

end

/-- Whether a tree is a variable with that name. -/
def isVariableOf (name : String) : Expr → Bool
  | .variable own _ => own == name
  | _ => false

variable {x z : String}

/-- Renaming a variable in some trees is renaming it in each of them. -/
theorem renameAll_eq_map (es : List Expr) : renameAll x z es = es.map (rename x z) := by
  induction es with
  | nil => rfl
  | cons e es ih => rw [renameAll, List.map_cons, ih]

/-- Renaming a variable keeps the kind of a tree. -/
@[simp] theorem kind_rename (e : Expr) : (e.rename x z).kind = e.kind := by
  cases e <;> rfl

end Expr

/-! ## Scopes -/

namespace Scope

variable {s s' : Scope} {x z : String}

/-- The second scope binds under another name what the first one binds to a name, and apart from
these two names the scopes agree. -/
structure Renames (x z : String) (s s' : Scope) : Prop extends s.SameFunctions s' where
  bound : ∃ value, s.binding? x = some value ∧ s'.binding? z = some value
  others : ∀ name, name ≠ x → name ≠ z → s.Agree s' name

/-- A sample for a variable is one for it under its other name. -/
theorem renames_sample (same : s.SameFunctions s')
    (others : ∀ name, name ≠ x → name ≠ z → s.Agree s' name) (value : Value) :
    Renames x z (s.inherit.bind x value) (s'.inherit.bind z value) where
  toSameFunctions := ⟨same.functions, same.natives⟩
  bound := by
    refine ⟨value, ?_, ?_⟩ <;> rw [binding?_bind, if_pos rfl]
  others name notX notZ := by
    rw [Agree, binding?_bind, binding?_bind, if_neg notX, if_neg notZ]
    exact (others name notX notZ).inherit

/-- A sample for any variable of a tree keeps scopes apart by no more than the name. -/
theorem Renames.sample (h : Renames x z s s') {target : String} (fresh : target ≠ z)
    (value : Value) :
    Renames x z (s.inherit.bind target value)
      (s'.inherit.bind (Expr.renamed x z target) value) := by
  by_cases own : target = x
  · subst own
    rw [Expr.renamed, if_pos rfl]
    exact renames_sample h.toSameFunctions h.others value
  · rw [Expr.renamed, if_neg own]
    obtain ⟨v, atX, atZ⟩ := h.bound
    refine ⟨h.toSameFunctions.sample target value, ⟨v, ?_, ?_⟩, fun name notX notZ => ?_⟩
    · rw [binding?_bind, if_neg (Ne.symm own), binding?_inherit, atX, Option.some_or]
    · rw [binding?_bind, if_neg fresh.symm, binding?_inherit, atZ, Option.some_or]
    · exact (h.others name notX notZ).sample target value

end Scope

namespace Expr

variable {settings : Settings} {s s' : Scope} {x z : String}

/-! ## Evaluation -/

/-- Renaming a variable keeps the form of an integral. -/
theorem isIntegral_renameAll {args : List Expr} :
    IsIntegral (renameAll x z args) ↔ IsIntegral args := by
  constructor
  · rintro ⟨body, target, lower, upper, same⟩
    simp only [renameAll_eq_map, List.map_eq_cons_iff, List.map_eq_nil_iff] at same
    obtain ⟨body', _, rfl, -, variable', _, rfl, isVariable, lower', _, rfl, -, upper', _, rfl, -,
      rfl⟩ := same
    cases variable' with
    | «variable» name term =>
      cases isVariable
      exact ⟨body', name, lower', upper', rfl⟩
    | _ => cases isVariable
  · rintro ⟨body, target, lower, upper, rfl⟩
    exact ⟨_, _, _, _, rfl⟩

/-- Renaming a variable keeps what is wrong with an integral. -/
theorem integralFault_renameAll (args : List Expr) :
    integralFault (renameAll x z args) = integralFault args := by
  match args with
  | [] => rfl
  | [_] => rfl
  | [_, _] => rfl
  | [_, _, _] => rfl
  | [_, other, _, _] => simp only [renameAll, integralFault, kind_rename]
  | _ :: _ :: _ :: _ :: _ :: others =>
    simp only [renameAll_eq_map, List.map_cons, integralFault, List.length_cons, List.length_map]

/-- An integral has the outcome of the renamed one if its bounds and the samples of its body do. -/
theorem integralForm_rename {eval : Scope → Expr → Except Fault Value} {args : List Expr}
    (bounds : ∀ e ∈ args, eval s' (e.rename x z) = eval s e)
    (samples : ∀ e ∈ args, ∀ target value, .variable target none ∈ args →
      eval (s'.inherit.bind (renamed x z target) (.number value)) (e.rename x z) =
        eval (s.inherit.bind target (.number value)) e) :
    integralForm eval s' (renameAll x z args) = integralForm eval s args := by
  by_cases regular : IsIntegral args
  · obtain ⟨body, target, lower, upper, rfl⟩ := regular
    have integrals : ∀ low high,
        integrateWith (fun inner => eval inner (body.rename x z)) s' (renamed x z target) low high =
          integrateWith (fun inner => eval inner body) s target low high := by
      intro low high
      simp only [integrateWith, fun value => samples body (by simp) target value (by simp)]
    simp only [renameAll, rename, integralForm_eq, bounds lower (by simp), bounds upper (by simp),
      integrals]
  · have irregular : ¬IsIntegral (renameAll x z args) := mt isIntegral_renameAll.1 regular
    rw [integralForm_of_not_isIntegral irregular, integralForm_of_not_isIntegral regular,
      integralFault_renameAll]

/-- A tree has the outcome that it has with a variable under another name, where the other name is
bound to what the name is bound to. -/
theorem evalWithin_rename {levels : Nat} {e : Expr} (h : s.Renames x z s')
    (fresh : e.hasPart (isVariableOf z) = false) :
    evalWithin settings levels s' (e.rename x z) = evalWithin settings levels s e := by
  -- The induction is on the levels, for samples of a body are taken in other scopes. Bodies of
  -- functions are not renamed: there the scopes agree on all names.
  induction levels generalizing s s' e with
  | zero => rfl
  | succ levels ih =>
    cases e with
    | number d => rfl
    | «variable» name term =>
      have other : name ≠ z := beq_eq_false_iff_ne.1 (eq_false_of_hasPart_eq_false fresh)
      rw [rename, evalWithin_variable, evalWithin_variable, renamed]
      obtain ⟨value, atX, atZ⟩ := h.bound
      by_cases own : name = x
      · subst own
        simp only [Scope.valueOf, if_pos, atX, atZ]
        cases term <;> rfl
      · simp only [Scope.valueOf, if_neg own, (h.others name own other).symm]
    | signed sign operand =>
      rw [hasPart, Bool.or_eq_false_iff] at fresh
      rw [rename, evalWithin_signed, evalWithin_signed, ih h fresh.2]
    | binary op left right =>
      rw [hasPart, Bool.or_eq_false_iff, Bool.or_eq_false_iff] at fresh
      rw [rename, evalWithin_binary, evalWithin_binary, ih h fresh.1.2, ih h fresh.2]
    | vector items => rfl
    | matrix columns => rfl
    | definition name params body => rfl
    | call name args =>
      rw [hasPart, Bool.or_eq_false_iff, anyHasPart_eq_false_iff] at fresh
      have inside := fresh.2
      have given : (renameAll x z args).mapM (fun arg => evalWithin settings levels s' arg) =
          args.mapM (fun arg => evalWithin settings levels s arg) := by
        rw [renameAll_eq_map, List.mapM_map]
        exact mapM_congr fun arg mem => ih h (inside arg mem)
      have bodies : ∀ (f : UserFunction) (values : List Value),
          evalWithin settings levels (s'.child.bindAll (f.params.zip values)) f.body =
            evalWithin settings levels (s.child.bindAll (f.params.zip values)) f.body :=
        fun f values => evalWithin_eq_of_agreeOn (h.agreeOn_call (f.params.zip values) f.body)
      have integrals : integralForm (fun inner e => evalWithin settings levels inner e) s'
          (renameAll x z args) =
            integralForm (fun inner e => evalWithin settings levels inner e) s args := by
        refine integralForm_rename (fun arg mem => ih h (inside arg mem)) ?_
        intro arg mem target value isTarget
        have other : target ≠ z :=
          beq_eq_false_iff_ne.1 (eq_false_of_hasPart_eq_false (inside _ isTarget))
        exact ih (h.sample other (.number value)) (inside arg mem)
      have count : (renameAll x z args).length = args.length := by
        rw [renameAll_eq_map, List.length_map]
      rw [rename, evalWithin, evalWithin, h.functions name, h.natives name]
      simp only [given, bodies, integrals, count]

/-! ## The variable of an integral -/

/-- An integral binds its variable, wherever no user function takes its name. With all variables of
that name in the body under another name, which does not occur there, it has the same outcome, a
value or a fault; and if the bounds do not mention the variable, it has the same outcome wherever all
other names are bound alike. -/
theorem integral_binds_variable (settings : Settings) (levels : Nat) (s : Scope)
    (free : s.functions.get? integralName = none) (body lower upper : Expr) (x : String) :
    (∀ z, body.hasPart (isVariableOf z) = false →
      (call integralName [body.rename x z, plain z, lower, upper]).evalWithin settings levels s =
        (call integralName [body, plain x, lower, upper]).evalWithin settings levels s) ∧
    ∀ s' : Scope, s.SameFunctions s' → (∀ name, name ≠ x → s.Agree s' name) →
      lower.mentions x = false → upper.mentions x = false →
        (call integralName [body, plain x, lower, upper]).evalWithin settings levels s' =
          (call integralName [body, plain x, lower, upper]).evalWithin settings levels s := by
  cases levels with
  | zero => exact ⟨fun _ _ => rfl, fun _ _ _ _ _ => rfl⟩
  | succ levels =>
    refine ⟨fun z fresh => ?_, fun s' same others lowFree highFree => ?_⟩
    · have samples : ∀ value : Decimal,
          evalWithin settings levels (s.inherit.bind z (.number value)) (body.rename x z) =
            evalWithin settings levels (s.inherit.bind x (.number value)) body := fun value =>
        evalWithin_rename (Scope.renames_sample ⟨fun _ => rfl, fun _ => rfl⟩ (fun _ _ _ => rfl) _)
          fresh
      rw [evalWithin_integral free, evalWithin_integral free, plain, plain, integralForm_eq,
        integralForm_eq]
      simp only [integrateWith, samples]
    · have unmentioned : ∀ e : Expr, e.mentions x = false →
          evalWithin settings levels s' e = evalWithin settings levels s e := fun e absent =>
        evalWithin_eq_of_agreeOn ⟨same, fun name mentioned => others name fun isX => by
          rw [isX, absent] at mentioned
          cases mentioned⟩
      have samples : ∀ value : Decimal,
          evalWithin settings levels (s'.inherit.bind x (.number value)) body =
            evalWithin settings levels (s.inherit.bind x (.number value)) body := fun value =>
        evalWithin_eq_of_agreeOn ⟨same.sample x _, fun name _ => by
          rw [Scope.Agree, Scope.binding?_bind, Scope.binding?_bind]
          split
          · rfl
          · next other => exact (others name other).inherit⟩
      rw [evalWithin_integral free, evalWithin_integral (same.functions integralName ▸ free), plain,
        integralForm_eq, integralForm_eq, unmentioned lower lowFree, unmentioned upper highFree]
      simp only [integrateWith, samples]

/-- The body takes an integral over the same variable again, with the variable as its bound, and the
other name is that of a constant; the second scope has text for the variable. -/
theorem integral_binds_variable_nested :
    let body : Expr := .binary .multiply (.plain "x")
      (.call "int" [.plain "x", .plain "x", .number .zero, .plain "x"])
    let renamedBody : Expr := .binary .multiply (.plain "pi")
      (.call "int" [.plain "pi", .plain "pi", .number .zero, .plain "pi"])
    let s' : Scope := Scope.root.bind "x" (.symbolic "y")
    Scope.root.functions.get? integralName = none ∧
      body.hasPart (isVariableOf "pi") = false ∧ Scope.root.SameFunctions s' ∧
      (∀ name, name ≠ "x" → Scope.root.Agree s' name) ∧
      (Expr.number .zero).mentions "x" = false ∧ (Expr.plain "e").mentions "x" = false ∧
      (call integralName [renamedBody, .plain "pi", .number .zero, .plain "e"]).evalWithin {} 6
        s' = (call integralName [body, .plain "x", .number .zero, .plain "e"]).evalWithin {} 6
          Scope.root := by
  intro body renamedBody s'
  have free : Scope.root.functions.get? integralName = none := rfl
  have fresh : body.hasPart (isVariableOf "pi") = false := by decide
  have same : Scope.root.SameFunctions s' := ⟨fun _ => rfl, fun _ => rfl⟩
  have others : ∀ name, name ≠ "x" → Scope.root.Agree s' name := by
    intro name other
    rw [Scope.Agree, Scope.binding?_bind, if_neg other]
  have low : (Expr.number .zero).mentions "x" = false := rfl
  have high : (Expr.plain "e").mentions "x" = false := by decide
  have isRenamed : renamedBody = body.rename "x" "pi" := by rfl
  have inOther := (integral_binds_variable {} 6 s' free body (.number .zero) (.plain "e") "x").1
    "pi" fresh
  have inRoot := (integral_binds_variable {} 6 Scope.root free body (.number .zero) (.plain "e")
    "x").2 s' same others low high
  exact ⟨free, fresh, same, others, low, high, isRenamed ▸ inOther.trans inRoot⟩

end Expr

end Reckon
