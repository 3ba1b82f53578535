import Reckon.Proofs.Evaluation.Levels
import Reckon.Proofs.Evaluation.Numbers
import Reckon.Proofs.Evaluation.Scoping
import Reckon.Proofs.Syntax.Parts

/-!
# Calling is substituting

A call evaluates the body of a function in a scope of its own, where the parameters are bound to the
values of the arguments. The body with the arguments in place of the parameters, evaluated where the
call stands, has the same outcome: the same number, the same text or the same fault. Only the
nesting differs, since an argument is evaluated where its parameter occurs. So the two evaluations
agree up to the limit, which each of them may reach on its own.
-/

namespace Reckon

namespace Expr

/-! ## Substitution -/

mutual

/-- The tree with trees in place of the names that they are given for. The parameters of a
definition hide them in its body. -/
def substitute (given : Table Expr) : Expr → Expr
  | .number value => .number value
  | .variable name none => (given.get? name).getD (.variable name none)
  | .variable name (some term) => .variable name (some term)
  | .signed sign operand => .signed sign (operand.substitute given)
  | .binary op left right => .binary op (left.substitute given) (right.substitute given)
  | .vector items => .vector (substituteAll given items)
  | .matrix columns => .matrix (substituteAll given columns)
  | .definition name params body =>
    .definition name params (body.substitute (params.foldl Table.erase given))
  | .call name args => .call name (substituteAll given args)

/-- Some trees with trees in place of the names that they are given for. -/
def substituteAll (given : Table Expr) : List Expr → List Expr
  | [] => []
  | e :: es => e.substitute given :: substituteAll given es

end

end Expr

/-- The body of a function with the arguments of a call in place of its parameters. -/
def UserFunction.inlined (f : UserFunction) (args : List Expr) : Expr :=
  f.body.substitute (Table.empty.insertAll (f.params.zip args))

namespace Expr

/-- All names of a tree are given or those of constants, no given name carries a monomial, and no
integral is taken. -/
structure Substitutable (given : Table Expr) (e : Expr) : Prop where
  noIntegral : e.hasPart (isCallOf integralName) = false
  closed : ∀ name, e.mentions name = true →
    given.contains name = true ∨ Scope.constants.contains name = true
  plain : ∀ name, given.contains name = true → e.hasPart (isMonomialOf name) = false

namespace Substitutable

variable {given : Table Expr}

/-- A part of a tree that arguments may be put into is one itself. -/
theorem part {e part : Expr} (h : e.Substitutable given)
    (parts : ∀ test, e.hasPart test = false → part.hasPart test = false)
    (names : ∀ name, part.mentions name = true → e.mentions name = true) :
    part.Substitutable given where
  noIntegral := parts _ h.noIntegral
  closed name mentioned := h.closed name (names name mentioned)
  plain name isGiven := parts _ (h.plain name isGiven)

/-- Arguments may be put into the operand of a signed tree. -/
theorem operand {sign : Sign} {e : Expr} (h : (signed sign e).Substitutable given) :
    e.Substitutable given :=
  h.part (fun _ none => (Bool.or_eq_false_iff.1 none).2) fun _ => id

/-- Arguments may be put into the left operand of a binary tree. -/
theorem left {op : Operator} {left right : Expr} (h : (binary op left right).Substitutable given) :
    left.Substitutable given := by
  refine h.part (fun test none => ?_) fun name mentioned => ?_
  · rw [hasPart, Bool.or_eq_false_iff, Bool.or_eq_false_iff] at none
    exact none.1.2
  · rw [mentions, mentioned, Bool.true_or]

/-- Arguments may be put into the right operand of a binary tree. -/
theorem right {op : Operator} {left right : Expr} (h : (binary op left right).Substitutable given) :
    right.Substitutable given := by
  refine h.part (fun test none => ?_) fun name mentioned => ?_
  · rw [hasPart, Bool.or_eq_false_iff] at none
    exact none.2
  · rw [mentions, mentioned, Bool.or_true]

/-- Arguments may be put into each argument of a call. -/
theorem argument {name : String} {args : List Expr} (h : (call name args).Substitutable given)
    {arg : Expr} (mem : arg ∈ args) : arg.Substitutable given := by
  refine h.part (fun test none => ?_) fun name mentioned => mentionsAny_iff.2 ⟨arg, mem, mentioned⟩
  exact anyHasPart_eq_false_iff.1 (Bool.or_eq_false_iff.1 none).2 arg mem

/-- A tree that arguments may be put into takes no integral. -/
theorem name_ne {name : String} {args : List Expr} (h : (call name args).Substitutable given) :
    name ≠ integralName := by
  have other : isCallOf integralName (call name args) = false :=
    eq_false_of_hasPart_eq_false h.noIntegral
  exact beq_eq_false_iff_ne.1 other

end Substitutable

end Expr

/-! ## The scope of a call -/

namespace Scope

/-- A name that a tree is given for is bound to what the tree evaluates to in a scope, and any other
name only if it is a constant. -/
def BindsGiven (settings : Settings) (s : Scope) (name : String) (bound : Option Value)
    (given : Option Expr) : Prop :=
  (given = none ∧ bound = constants.get? name) ∨
    ∃ arg v levels, given = some arg ∧ bound = some v ∧ arg.evalWithin settings levels s = .ok v

/-- The second scope is that of a call in the first one, where the trees are given for the
parameters. -/
structure Calls (settings : Settings) (s s' : Scope) (given : Table Expr) : Prop
    extends s.SameFunctions s' where
  bindings : ∀ name, s.BindsGiven settings name (s'.binding? name) (given.get? name)

/-- The scope of a call binds its parameters to what the arguments give. -/
theorem calls_child {settings : Settings} {s : Scope} {levels : Nat} {args : List Expr}
    {values : List Value} (params : List String)
    (evaluated : args.mapM (fun arg => arg.evalWithin settings levels s) = .ok values) :
    s.Calls settings (s.child.bindAll (params.zip values))
      (Table.empty.insertAll (params.zip args)) where
  functions _ := rfl
  natives _ := rfl
  bindings := by
    have each := List.Forall₂.flip (mapM_eq_ok_iff.1 evaluated)
    refine Table.get?_insertAll_zip (fun name => .inl ⟨rfl, rfl⟩) params ?_
    exact each.imp fun v arg value name => .inr ⟨arg, v, levels, rfl, rfl, value⟩

end Scope

namespace Expr

variable {settings : Settings} {s s' : Scope} {given : Table Expr}

/-- Putting arguments into some trees is putting them into each of them. -/
theorem substituteAll_eq_map (es : List Expr) :
    substituteAll given es = es.map (substitute given) := by
  induction es with
  | nil => rfl
  | cons e es ih => rw [substituteAll, ih, List.map_cons]

/-- A variable is evaluated in the scope of a call as what stands for it is in the scope of the
caller. -/
theorem matchesUpTo_substitute_variable (h : s.Calls settings s' given)
    (constant : ∀ name, Scope.constants.contains name = true →
      s.binding? name = Scope.constants.get? name)
    {name : String} {term : Option Monomial} (valid : (Expr.variable name term).Substitutable given)
    (levels : Nat) :
    MatchesUpTo settings.maxDepth Eq Eq
      (evalWithin settings (levels + 1) s (substitute given (.variable name term)))
      (evalWithin settings (levels + 1) s' (.variable name term)) := by
  rcases h.bindings name with ⟨missing, bound⟩ | ⟨arg, v, enough, found, bound, value⟩
  · have isConstant : Scope.constants.contains name = true := by
      have mentioned : (Expr.variable name term).mentions name = true := beq_self_eq_true name
      refine (valid.closed name mentioned).resolve_left fun isGiven => ?_
      rw [Table.contains, missing] at isGiven
      cases isGiven
    have same : s.binding? name = s'.binding? name := by rw [constant name isConstant, bound]
    have kept : substitute given (.variable name term) = .variable name term := by
      cases term with
      | none => rw [substitute, missing, Option.getD_none]
      | some term => rfl
    have values : s.valueOf name term = s'.valueOf name term := by
      unfold Scope.valueOf
      rw [same]
    rw [kept, evalWithin_variable, evalWithin_variable, values]
    exact .inr (matches_eq_iff.2 rfl)
  · cases term with
    | some term =>
      have isGiven : given.contains name = true := by rw [Table.contains, found]; rfl
      have plain := eq_false_of_hasPart_eq_false (valid.plain name isGiven)
      rw [isMonomialOf, beq_self_eq_true] at plain
      cases plain
    | none =>
      have result : s'.valueOf name none = .ok v := by
        unfold Scope.valueOf
        rw [bound]
      rw [substitute, found, Option.getD_some, evalWithin_variable, result]
      rcases Nat.le_total enough (levels + 1) with le | le
      · exact .inr (matches_eq_iff.2 (evalWithin_of_le rfl le value))
      · rw [← value]
        exact matchesUpTo_evalWithin settings le s arg

/-- A tree is evaluated in the scope of a call as it is in the scope of the caller with the
arguments in place of the parameters, up to the limit. -/
theorem matchesUpTo_substitute (h : s.Calls settings s' given)
    (constant : ∀ name, Scope.constants.contains name = true →
      s.binding? name = Scope.constants.get? name)
    {e : Expr} (valid : e.Substitutable given) (levels : Nat) :
    MatchesUpTo settings.maxDepth Eq Eq (evalWithin settings levels s (e.substitute given))
      (evalWithin settings levels s' e) := by
  have lifts := lifts_matchesUpTo settings.maxDepth Eq
  have refl : ∀ x : Except Fault Value, MatchesUpTo settings.maxDepth Eq Eq x x :=
    lifts.refl (fun _ => rfl) fun _ => rfl
  induction levels generalizing e with
  | zero => exact refl _
  | succ levels ih =>
    cases e with
    | number d => exact refl _
    | «variable» name term => exact matchesUpTo_substitute_variable h constant valid levels
    | signed sign e => exact lifts.signed relatesValues_eq (ih valid.operand)
    | binary op left right =>
      refine lifts.binary (ih valid.left) (ih valid.right) ?_
      rintro l r _ _ - - rfl rfl
      exact refl _
    | vector items => exact refl _
    | matrix columns => exact refl _
    | definition name params body => exact refl _
    | call name args =>
      have given : List.Forall₂ (fun arg arg' => MatchesUpTo settings.maxDepth Eq Eq
          (arg.evalWithin settings levels s) (arg'.evalWithin settings levels s'))
          (substituteAll given args) args := by
        rw [substituteAll_eq_map, List.forall₂_map_left_iff, List.forall₂_same]
        exact fun arg mem => ih (valid.argument mem)
      rw [substitute]
      cases user : s.functions.get? name with
      | some f =>
        refine lifts.user (fun _ => rfl) user (h.functions name ▸ user) given ?_
        rintro values values' - same
        rw [List.forall₂_eq_eq_eq] at same
        rw [same, evalWithin_eq_of_agreeOn (h.toSameFunctions.agreeOn_call _ f.body)]
        exact refl _
      | none =>
        refine lifts.native (fun _ => rfl) user (h.functions name ▸ user) valid.name_ne
          (h.natives name) given ?_
        rintro native values values' - - same
        rw [List.forall₂_eq_eq_eq] at same
        rw [same]
        exact refl _

/-- Arguments that have values have them with fewer levels too, or the limit is reached. -/
theorem mapM_evalWithin_of_forall_ok {levels more : Nat} (le : levels ≤ more) {args : List Expr}
    (given : ∀ arg ∈ args, ∃ v, arg.evalWithin settings more s = .ok v) :
    args.mapM (fun arg => arg.evalWithin settings levels s) =
        .error (.depthExceeded settings.maxDepth) ∨
      ∃ values, args.mapM (fun arg => arg.evalWithin settings levels s) = .ok values := by
  have cut : MatchesUpTo settings.maxDepth Eq (List.Forall₂ Eq)
      (args.mapM (fun arg => arg.evalWithin settings levels s))
      (args.mapM (fun arg => arg.evalWithin settings more s)) :=
    (lifts_matchesUpTo settings.maxDepth Eq).mapM
      (List.forall₂_same.2 fun arg _ => matchesUpTo_evalWithin settings le s arg)
  refine cut.imp id fun same => ?_
  obtain ⟨values, evaluated⟩ := exists_mapM_eq_ok given
  generalize args.mapM (fun arg => arg.evalWithin settings levels s) = x at same
  rw [evaluated] at same
  cases same with
  | ok _ => exact ⟨_, rfl⟩

/-- If neither the call nor the body with the arguments in place of the parameters comes to the
limit, they have the same outcome. -/
theorem evalWithin_call_eq_inlined {name : String} {f : UserFunction} {args : List Expr}
    (found : s.functions.get? name = some f) (arity : args.length = f.params.length)
    (constant : ∀ name, Scope.constants.contains name = true →
      s.binding? name = Scope.constants.get? name)
    (valid : f.body.Substitutable (Table.empty.insertAll (f.params.zip args))) {levels : Nat}
    (given : ∀ arg ∈ args, ∃ v, arg.evalWithin settings (levels + 1) s = .ok v)
    (callWithin : (call name args).evalWithin settings (levels + 1) s ≠
      .error (.depthExceeded settings.maxDepth))
    (bodyWithin : (f.inlined args).evalWithin settings (levels + 1) s ≠
      .error (.depthExceeded settings.maxDepth)) :
    (call name args).evalWithin settings (levels + 1) s =
      (f.inlined args).evalWithin settings (levels + 1) s := by
  rw [evalWithin_user found arity] at callWithin ⊢
  rcases mapM_evalWithin_of_forall_ok (Nat.le_succ levels) given with limit | ⟨values, evaluated⟩
  · rw [limit] at callWithin
    exact absurd rfl callWithin
  · rw [evaluated] at callWithin ⊢
    have body := matchesUpTo_evalWithin settings (Nat.le_succ levels)
      (s.child.bindAll (f.params.zip values)) f.body
    have substituted := matchesUpTo_substitute (Scope.calls_child f.params evaluated) constant valid
      (levels + 1)
    have inScope := matches_eq_iff.1 (body.resolve_left callWithin)
    have inPlace := matches_eq_iff.1 (substituted.resolve_left bodyWithin)
    exact inScope.trans inPlace.symm

/-- Calling is substituting. If the body of a function takes no integral and mentions only its
parameters and the constants, if the constants have their values and all arguments have one, then
the call has the outcome of the body with the arguments in place of the parameters, whether it is a
number, text or a fault, unless one of the two evaluations comes to the limit. A parsed body carries
no monomials; in any other body its parameters may carry none. -/
theorem eval_call_eq_inlined {name : String} {f : UserFunction} {args : List Expr}
    (found : s.functions.get? name = some f)
    (noIntegral : f.body.hasPart (isCallOf integralName) = false)
    (closed : ∀ x, f.body.mentions x = true → x ∈ f.params ∨ Scope.constants.contains x = true)
    (plain : ∀ param ∈ f.params, f.body.hasPart (isMonomialOf param) = false)
    (constant : ∀ x, Scope.constants.contains x = true → s.binding? x = Scope.constants.get? x)
    (arity : args.length = f.params.length)
    (given : ∀ arg ∈ args, ∃ v, arg.eval settings s = .ok v)
    (callWithin : ¬(call name args).ReachesLimit settings s)
    (bodyWithin : ¬(f.inlined args).ReachesLimit settings s) :
    (call name args).eval settings s = (f.inlined args).eval settings s := by
  obtain ⟨first, ofCall⟩ := exists_limit_of_not_reachesLimit callWithin
  obtain ⟨second, ofBody⟩ := exists_limit_of_not_reachesLimit bodyWithin
  -- The limit is set to a number that neither outcome names.
  obtain ⟨sameCall, callNames⟩ := ofCall (max first second) (Nat.le_max_left _ _)
  obtain ⟨sameBody, bodyNames⟩ := ofBody (max first second) (Nat.le_max_right _ _)
  rw [← sameCall] at callNames ⊢
  rw [← sameBody] at bodyNames ⊢
  have params : ∀ x, (Table.empty.insertAll (f.params.zip args)).contains x = true ↔
      x ∈ f.params := by
    intro x
    rw [Table.contains_insertAll, List.map_fst_zip (Nat.le_of_eq arity.symm)]
    exact or_iff_right nofun
  have valid : f.body.Substitutable (Table.empty.insertAll (f.params.zip args)) :=
    ⟨noIntegral, fun x mentioned => (closed x mentioned).imp_left (params x).2,
      fun x isGiven => plain x ((params x).1 isGiven)⟩
  refine evalWithin_call_eq_inlined found arity constant valid (fun arg mem => ?_) callNames
    bodyNames
  obtain ⟨v, value⟩ := given arg mem
  have angle : (settings.withMaxDepth (max first second)).angle = settings.angle := rfl
  exact ⟨v, evalWithin_of_le angle (Nat.le_refl _) value⟩

/-- A call in the body, a parameter that occurs twice, and text as the first argument. -/
theorem eval_call_eq_inlined_nested :
    let g : UserFunction := ⟨"g", ["t"], .binary .power (.plain "t") (.number .two), "g(t) = t^2"⟩
    let f : UserFunction := ⟨"f", ["a", "b"],
      .binary .subtract (.call "g" [.binary .add (.plain "a") (.plain "b")])
        (.binary .multiply (.plain "e") (.plain "a")), "f(a, b) = g(a + b) - e * a"⟩
    let s : Scope := { Scope.root with functions := ⟨[("f", f), ("g", g)]⟩ }
    let args : List Expr := [.binary .subtract (.plain "x") (.number .one), .number .three]
    s.functions.get? "f" = some f ∧ f.body.hasPart (isCallOf integralName) = false ∧
      (∀ x, f.body.mentions x = true → x ∈ f.params ∨ Scope.constants.contains x = true) ∧
      (∀ param ∈ f.params, f.body.hasPart (isMonomialOf param) = false) ∧
      (∀ x, Scope.constants.contains x = true → s.binding? x = Scope.constants.get? x) ∧
      args.length = f.params.length ∧ (∀ arg ∈ args, ∃ v, arg.eval {} s = .ok v) ∧
      ¬(call "f" args).ReachesLimit {} s ∧ ¬(f.inlined args).ReachesLimit {} s ∧
      (call "f" args).eval {} s = (f.inlined args).eval {} s := by
  intro g f s args
  have closed : ∀ x, f.body.mentions x = true →
      x ∈ f.params ∨ Scope.constants.contains x = true := by
    intro x mentioned
    have names : (("a" = x ∨ "b" = x) ∨ "e" = x) ∨ "a" = x := by
      simpa [f, plain, mentions, mentionsAny, or_assoc] using mentioned
    rcases names with ((rfl | rfl) | rfl) | rfl <;> decide
  have plain : ∀ param ∈ f.params, f.body.hasPart (isMonomialOf param) = false := by decide
  have given : ∀ arg ∈ args, ∃ v, arg.eval {} s = .ok v := by
    intro arg mem
    rcases List.mem_pair.1 mem with rfl | rfl
    · exact ⟨.symbolic "(x - 1)", rfl⟩
    · exact ⟨.number .three, rfl⟩
  obtain ⟨text, called⟩ : ∃ text, (call "f" args).eval {} s = .ok (.symbolic text) := ⟨_, rfl⟩
  obtain ⟨text', inPlace⟩ : ∃ text, (f.inlined args).eval {} s = .ok (.symbolic text) := ⟨_, rfl⟩
  have callWithin := not_reachesLimit_of_eval_eq_ok called
  have bodyWithin := not_reachesLimit_of_eval_eq_ok inPlace
  have equal := eval_call_eq_inlined (show s.functions.get? "f" = some f from rfl) (by decide)
    closed plain (fun _ _ => rfl) rfl given callWithin bodyWithin
  exact ⟨rfl, by decide, closed, plain, fun _ _ => rfl, rfl, given, callWithin, bodyWithin, equal⟩

end Expr

end Reckon
