import Reckon.Proofs.Evaluation.Levels
import Reckon.Proofs.Evaluation.Scales
import Reckon.Proofs.Syntax.Printable

/-!
# Printed trees keep their meaning

A printed tree is read back with its numbers in normal form and without its unary plus signs. Both
trees evaluate to the same: equal numbers, the same text or faults of one kind. A plus sign takes a
level of nesting, so the tree that is read back may have a value where the printed one came to the
limit; and a name below a plus sign is no name to integrate over.
-/

namespace Reckon

namespace Expr

open Value (Related Alike)

/-! ## What is read back -/

/-- Whether a tree is a variable below unary plus signs, at least one of them. -/
def isPlusVariable : Expr → Bool
  | .signed .positive operand => operand.kind == .variable || operand.isPlusVariable
  | _ => false

/-- Whether a tree is an `int` form with a variable below plus signs for the one to integrate over.
-/
def integratesOverPlus : Expr → Bool
  | .call name [_, target, _, _] => name == integralName && target.isPlusVariable
  | _ => false

/-- Whether a tree is a number that is not in normal form. -/
def isScaledNumber : Expr → Bool
  | .number d => d.normalize != d
  | _ => false

/-- The second tree is the first one without some of its plus signs and with related numbers. If
`int` is free for integrals, dropping plus signs makes no integral of what was none. -/
inductive ReadAs (D : Decimal → Decimal → Prop) (free : Prop) : Expr → Expr → Prop where
  | number {d d' : Decimal} (same : D d d') : ReadAs D free (.number d) (.number d')
  | variable (name : String) (term : Option Monomial) :
      ReadAs D free (.variable name term) (.variable name term)
  | plus {e e' : Expr} (operand : ReadAs D free e e') : ReadAs D free (.signed .positive e) e'
  | signed (sign : Sign) {e e' : Expr} (operand : ReadAs D free e e') :
      ReadAs D free (.signed sign e) (.signed sign e')
  | binary (op : Operator) {left left' right right' : Expr} (onLeft : ReadAs D free left left')
      (onRight : ReadAs D free right right') :
      ReadAs D free (.binary op left right) (.binary op left' right')
  | call {name : String} {args args' : List Expr} (given : List.Forall₂ (ReadAs D free) args args')
      (integral : name = integralName → free → IsIntegral args' → IsIntegral args) :
      ReadAs D free (.call name args) (.call name args')
  | other {e e' : Expr} (kind : e'.kind = e.kind)
      (noScalar : e.kind = .vector ∨ e.kind = .matrix ∨ e.kind = .definition) : ReadAs D free e e'

section

variable {D : Decimal → Decimal → Prop} {free : Prop}

mutual

/-- A tree is read as itself. -/
theorem readAs_refl (refl : ∀ d, D d d) : ∀ e : Expr, ReadAs D free e e
  | .number d => .number (refl d)
  | .variable name term => .variable name term
  | .signed sign operand => .signed sign (readAs_refl refl operand)
  | .binary op left right => .binary op (readAs_refl refl left) (readAs_refl refl right)
  | .vector _ => .other rfl (.inl rfl)
  | .matrix _ => .other rfl (.inr (.inl rfl))
  | .definition _ _ _ => .other rfl (.inr (.inr rfl))
  | .call _ args => .call (forall₂_readAs_refl refl args) fun _ _ => id

/-- Some trees are read as themselves. -/
theorem forall₂_readAs_refl (refl : ∀ d, D d d) :
    ∀ es : List Expr, List.Forall₂ (ReadAs D free) es es
  | [] => .nil
  | e :: es => .cons (readAs_refl refl e) (forall₂_readAs_refl refl es)

end

/-- Of a name that is read back, the tree was a name or a name below plus signs. -/
theorem isPlusVariable_of_readBack : ∀ {e : Expr} {name : String},
    e.readBack = .variable name none → e = .variable name none ∨ e.isPlusVariable = true
  | .variable _ _, _, h => .inl h
  | .signed .positive operand, name, h => by
    refine .inr ?_
    rw [isPlusVariable, Bool.or_eq_true]
    rcases isPlusVariable_of_readBack (e := operand) h with same | below
    · rw [same]
      exact .inl rfl
    · exact .inr below
  | .number _, _, h => by cases h
  | .signed .negative _, _, h => by cases h
  | .binary _ _ _, _, h => by cases h
  | .vector _, _, h => by cases h
  | .matrix _, _, h => by cases h
  | .definition _ _ _, _, h => by cases h
  | .call _ _, _, h => by cases h

/-- Reading some trees back is reading each of them back. -/
theorem allReadBack_eq_map (es : List Expr) : allReadBack es = es.map readBack := by
  induction es with
  | nil => rfl
  | cons e es ih => rw [allReadBack, ih, List.map_cons]

/-- Without plus signs in front of a variable to integrate over, no integral comes of reading back.
-/
theorem isIntegral_of_allReadBack {args : List Expr}
    (regular : integratesOverPlus (.call integralName args) = false)
    (h : IsIntegral (allReadBack args)) : IsIntegral args := by
  obtain ⟨body, target, lower, upper, same⟩ := h
  rw [allReadBack_eq_map] at same
  obtain ⟨a, afterBody, rfl, -, named⟩ := List.map_eq_cons_iff.1 same
  obtain ⟨b, afterName, rfl, second, bounds⟩ := List.map_eq_cons_iff.1 named
  obtain ⟨c, afterLower, rfl, -, last⟩ := List.map_eq_cons_iff.1 bounds
  obtain ⟨d, none, rfl, -, nothing⟩ := List.map_eq_cons_iff.1 last
  obtain rfl := List.map_eq_nil_iff.1 nothing
  rcases isPlusVariable_of_readBack second with plain | below
  · exact ⟨a, target, c, d, by rw [plain]⟩
  · rw [integratesOverPlus, below] at regular
    cases regular

mutual

/-- A tree is read back as the relation says, if it says so of its numbers. -/
theorem readAs_readBack : ∀ {e : Expr}, e.hasPart isScaledNumber = false ∨ (∀ d, D d d.normalize) →
    (free → e.hasPart integratesOverPlus = false) → (∀ d, D d d) → ReadAs D free e e.readBack
  | .number d, numbers, _, refl => by
    rw [readBack]
    refine .number ?_
    rcases numbers with normal | related
    · rw [bne_eq_false_iff_eq.1 normal]
      exact refl d
    · exact related d
  | .variable name term, _, _, _ => .variable name term
  | .signed .positive operand, numbers, regular, refl =>
    .plus (readAs_readBack (numbers.imp_left fun normal => (Bool.or_eq_false_iff.1 normal).2)
      (fun isFree => (Bool.or_eq_false_iff.1 (regular isFree)).2) refl)
  | .signed .negative operand, numbers, regular, refl =>
    .signed _ (readAs_readBack (numbers.imp_left fun normal => (Bool.or_eq_false_iff.1 normal).2)
      (fun isFree => (Bool.or_eq_false_iff.1 (regular isFree)).2) refl)
  | .binary op left right, numbers, regular, refl => by
    have parts : ∀ {test}, (binary op left right).hasPart test = false →
        left.hasPart test = false ∧ right.hasPart test = false := by
      intro test none
      rw [hasPart, Bool.or_eq_false_iff, Bool.or_eq_false_iff] at none
      exact ⟨none.1.2, none.2⟩
    exact .binary op
      (readAs_readBack (numbers.imp_left fun normal => (parts normal).1)
        (fun isFree => (parts (regular isFree)).1) refl)
      (readAs_readBack (numbers.imp_left fun normal => (parts normal).2)
        (fun isFree => (parts (regular isFree)).2) refl)
  | .vector _, _, _, _ => .other rfl (.inl rfl)
  | .matrix _, _, _, _ => .other rfl (.inr (.inl rfl))
  | .definition _ _ _, _, _, _ => .other rfl (.inr (.inr rfl))
  | .call name args, numbers, regular, refl => by
    refine .call (forall₂_readAs_allReadBack
      (numbers.imp_left fun normal => (Bool.or_eq_false_iff.1 normal).2)
      (fun isFree => (Bool.or_eq_false_iff.1 (regular isFree)).2) refl) fun same isFree => ?_
    subst same
    exact isIntegral_of_allReadBack (eq_false_of_hasPart_eq_false (regular isFree))

/-- Some trees are read as those that their texts are parsed to. -/
theorem forall₂_readAs_allReadBack : ∀ {es : List Expr},
    anyHasPart isScaledNumber es = false ∨ (∀ d, D d d.normalize) →
      (free → anyHasPart integratesOverPlus es = false) → (∀ d, D d d) →
        List.Forall₂ (ReadAs D free) es (allReadBack es)
  | [], _, _, _ => .nil
  | _ :: _, numbers, regular, refl =>
    .cons
      (readAs_readBack (numbers.imp_left fun normal => (Bool.or_eq_false_iff.1 normal).1)
        (fun isFree => (Bool.or_eq_false_iff.1 (regular isFree)).1) refl)
      (forall₂_readAs_allReadBack
        (numbers.imp_left fun normal => (Bool.or_eq_false_iff.1 normal).2)
        (fun isFree => (Bool.or_eq_false_iff.1 (regular isFree)).2) refl)

end

/-! ## Evaluating what is read back -/

/-- A variable is read as itself alone. -/
theorem ReadAs.eq_of_variable {name : String} {term : Option Monomial} {e : Expr}
    (h : ReadAs D free (.variable name term) e) : e = .variable name term := by
  cases h with
  | «variable» => rfl
  | other kind noScalar => simp [Expr.kind] at noScalar

/-- Lists of arguments of one length that are no integrals fail alike. -/
theorem sameKind_integralFault {args args' : List Expr} (count : args.length = args'.length) :
    (integralFault args).SameKind (integralFault args') := by
  have arity : ∀ n m, (Fault.arity integralName 4 n).SameKind (.arity integralName 4 m) :=
    fun _ _ => ⟨rfl, fun _ => ⟨nofun, nofun⟩⟩
  have unsupported : ∀ kind kind', (Fault.unsupported (.integrationOver kind)).SameKind
      (.unsupported (.integrationOver kind')) := fun _ _ => ⟨rfl, fun _ => ⟨nofun, nofun⟩⟩
  unfold integralFault
  split
  · next body other lower upper =>
    obtain ⟨a, b, c, d, rfl⟩ := List.length_eq_four.1 count.symm
    exact unsupported _ _
  · next others =>
    split
    · next a b c d =>
      obtain ⟨a', b', c', d', rfl⟩ := List.length_eq_four.1 count
      exact absurd rfl (others a' b' c' d')
    · exact arity _ _

/-- A call of a user function respects numbers in its arguments and in its body, wherever the
arguments have values. -/
theorem RespectsNumbers.user {settings : Settings} {levels : Nat} {s : Scope} {name : String}
    {args : List Expr} (h : RespectsNumbers D settings (levels + 1) s (.call name args))
    {f : UserFunction} (found : s.functions.get? name = some f) :
    (∀ arg ∈ args, RespectsNumbers D settings levels s arg) ∧
      ∀ values, args.mapM (fun arg => evalWithin settings levels s arg) = .ok values →
        RespectsNumbers D settings levels (s.child.bindAll (f.params.zip values)) f.body := by
  rw [RespectsNumbers, found] at h
  exact h

/-- An integral respects numbers in its bounds and in all of its samples. -/
theorem RespectsNumbers.integral {settings : Settings} {levels : Nat} {s : Scope}
    {body lower upper : Expr} {target : String}
    (h : RespectsNumbers D settings (levels + 1) s
      (.call integralName [body, .variable target none, lower, upper]))
    (isFree : s.functions.get? integralName = none) :
    RespectsNumbers D settings levels s lower ∧ RespectsNumbers D settings levels s upper ∧
      ∀ x, RespectsNumbers D settings levels (s.inherit.bind target (.number x)) body := by
  rw [RespectsNumbers, isFree] at h
  dsimp only at h
  rw [if_pos rfl] at h
  exact h body target lower upper rfl

/-- A call of a native function respects numbers in its arguments and in the function. -/
theorem RespectsNumbers.native {settings : Settings} {levels : Nat} {s : Scope} {name : String}
    {args : List Expr} (h : RespectsNumbers D settings (levels + 1) s (.call name args))
    (isFree : s.functions.get? name = none) (other : name ≠ integralName) :
    (∀ arg ∈ args, RespectsNumbers D settings levels s arg) ∧
      ∀ (native : Native) (numbers : List Decimal), s.natives.get? name = some native →
        args.mapM (fun arg => evalWithin settings levels s arg) = .ok (numbers.map .number) →
          NativeRespects D settings name native numbers := by
  rw [RespectsNumbers, isFree] at h
  dsimp only at h
  rw [if_neg other] at h
  exact h

/-- Up to a number of levels, what a tree is read as evaluates to what the tree evaluates to, in
scopes with related values and with at least as many levels, unless the evaluation of the tree comes
to the limit. -/
def MatchedWithin (D : Decimal → Decimal → Prop) (free : Prop) (settings : Settings)
    (levels : Nat) : Prop :=
  ∀ ⦃more : Nat⦄ ⦃s s' : Scope⦄ ⦃e e' : Expr⦄, levels ≤ more → s.RelatedBy D s' →
    (s.functions.get? integralName = none → free) → ReadAs D free e e' →
    e.RespectsNumbers D settings levels s →
      MatchesUpTo settings.maxDepth Fault.SameKind (Related D) (evalWithin settings levels s e)
        (evalWithin settings more s' e')

namespace MatchedWithin

variable {settings : Settings} {levels more : Nat} {s s' : Scope} {name : String}
  {args args' : List Expr}

/-- Arguments match what they are read as. -/
theorem arguments (ih : MatchedWithin D free settings levels) (le : levels ≤ more)
    (scopes : s.RelatedBy D s') (isFree : s.functions.get? integralName = none → free)
    (given : List.Forall₂ (ReadAs D free) args args')
    (respected : ∀ arg ∈ args, RespectsNumbers D settings levels s arg) :
    List.Forall₂ (fun arg arg' => MatchesUpTo settings.maxDepth Fault.SameKind (Related D)
      (evalWithin settings levels s arg) (evalWithin settings more s' arg')) args args' :=
  ((List.forall₂_and_left _ _).2 ⟨respected, given⟩).imp
    fun _ _ each => ih le scopes isFree each.2 each.1

/-- A call of a user function evaluates its body in scopes with related values. -/
theorem user (ih : MatchedWithin D free settings levels) (h : RelatesNumbers D)
    (le : levels ≤ more) (scopes : s.RelatedBy D s')
    (isFree : s.functions.get? integralName = none → free)
    (given : List.Forall₂ (ReadAs D free) args args')
    (respects : RespectsNumbers D settings (levels + 1) s (.call name args)) {f : UserFunction}
    (found : s.functions.get? name = some f) :
    MatchesUpTo settings.maxDepth Fault.SameKind (Related D)
      (evalWithin settings (levels + 1) s (.call name args))
      (evalWithin settings (more + 1) s' (.call name args')) := by
  have found' : s'.functions.get? name = some f := by rw [scopes.functions, found]
  obtain ⟨onArgs, onBody⟩ := respects.user found
  refine (lifts_matchesUpTo _ _).user Fault.sameKind_refl found found'
    (ih.arguments le scopes isFree given onArgs) fun values values' evaluated same => ?_
  exact ih le (scopes.call h f.params same) isFree (readAs_refl h.refl f.body)
    (onBody values evaluated)

/-- An integral has related bounds and related samples, and other arguments are refused alike. -/
theorem integral (ih : MatchedWithin D free settings levels) (h : RelatesNumbers D)
    (le : levels ≤ more) (scopes : s.RelatedBy D s')
    (isFree : s.functions.get? integralName = none → free)
    (given : List.Forall₂ (ReadAs D free) args args') (kept : IsIntegral args' → IsIntegral args)
    (respects : RespectsNumbers D settings (levels + 1) s (.call integralName args))
    (user : s.functions.get? integralName = none) :
    MatchesUpTo settings.maxDepth Fault.SameKind (Related D)
      (evalWithin settings (levels + 1) s (.call integralName args))
      (evalWithin settings (more + 1) s' (.call integralName args')) := by
  have user' : s'.functions.get? integralName = none := by rw [scopes.functions, user]
  rw [evalWithin_integral user, evalWithin_integral user']
  by_cases regular : IsIntegral args
  · obtain ⟨body, target, low, high, rfl⟩ := regular
    obtain ⟨body', low', high', rfl, onBody, onLow, onHigh⟩ :=
      forall₂_integral (fun _ => ReadAs.eq_of_variable) given
    obtain ⟨respectsLow, respectsHigh, respectsBody⟩ := respects.integral user
    refine (lifts_matchesUpTo _ _).integral Fault.sameKind_refl h.toKeptByArithmetic
      (relatesValues_related h) (ih le scopes isFree onLow respectsLow)
      (ih le scopes isFree onHigh respectsHigh) fun x x' same => ?_
    exact ih le (scopes.sample h target same) isFree onBody (respectsBody x)
  · have regular' : ¬IsIntegral args' := fun again => regular (kept again)
    rw [integralForm_of_not_isIntegral regular, integralForm_of_not_isIntegral regular']
    exact .inr (.error (sameKind_integralFault given.length_eq))

/-- A call of a native function has related arguments for it. -/
theorem native (ih : MatchedWithin D free settings levels) (h : RelatesNumbers D)
    (le : levels ≤ more) (scopes : s.RelatedBy D s')
    (isFree : s.functions.get? integralName = none → free)
    (given : List.Forall₂ (ReadAs D free) args args')
    (respects : RespectsNumbers D settings (levels + 1) s (.call name args))
    (user : s.functions.get? name = none) (other : name ≠ integralName) :
    MatchesUpTo settings.maxDepth Fault.SameKind (Related D)
      (evalWithin settings (levels + 1) s (.call name args))
      (evalWithin settings (more + 1) s' (.call name args')) := by
  have user' : s'.functions.get? name = none := by rw [scopes.functions, user]
  obtain ⟨onArgs, onNative⟩ := respects.native user other
  refine (lifts_matchesUpTo _ _).native Fault.sameKind_refl user user' other
    (by rw [scopes.natives]) (ih.arguments le scopes isFree given onArgs)
    fun native values values' known evaluated same => ?_
  refine .inr (h.callNative same fun numbers isNumbers => ?_)
  exact onNative native numbers known (isNumbers ▸ evaluated)

/-- A call matches what it is read as. -/
theorem call (ih : MatchedWithin D free settings levels) (h : RelatesNumbers D)
    (le : levels ≤ more) (scopes : s.RelatedBy D s')
    (isFree : s.functions.get? integralName = none → free)
    (given : List.Forall₂ (ReadAs D free) args args')
    (kept : name = integralName → free → IsIntegral args' → IsIntegral args)
    (respects : RespectsNumbers D settings (levels + 1) s (.call name args)) :
    MatchesUpTo settings.maxDepth Fault.SameKind (Related D)
      (evalWithin settings (levels + 1) s (.call name args))
      (evalWithin settings (more + 1) s' (.call name args')) := by
  cases user : s.functions.get? name with
  | some f => exact ih.user h le scopes isFree given respects user
  | none =>
    by_cases isInt : name = integralName
    · subst isInt
      exact ih.integral h le scopes isFree given (kept rfl (isFree user)) respects user
    · exact ih.native h le scopes isFree given respects user isInt

end MatchedWithin

/-- What a tree is read as evaluates to what the tree evaluates to, in scopes with related values,
unless the evaluation of the tree comes to the limit. -/
theorem matchesUpTo_readAs (h : RelatesNumbers D) {settings : Settings} {levels : Nat} :
    MatchedWithin D free settings levels := by
  have lifts := lifts_matchesUpTo settings.maxDepth Fault.SameKind
  have values := relatesValues_related h
  intro more s s' e e' le scopes isFree read respects
  induction levels generalizing more s s' e e' with
  | zero => exact .inl rfl
  | succ levels ih =>
    have within : MatchedWithin D free settings levels := ih
    obtain ⟨below, rfl⟩ : ∃ below, more = below + 1 := ⟨more - 1, by omega⟩
    have lower : levels ≤ below := Nat.le_of_succ_le_succ le
    cases read with
    | number same => exact .inr (.ok (.number same))
    | «variable» name term =>
      rw [evalWithin_variable, evalWithin_variable]
      exact .inr (scopes.valueOf h respects)
    | plus operand =>
      have unsigned : ∀ x : Except Fault Value, (x >>= fun v => .ok (v.withSign .positive)) = x :=
        fun x => by cases x <;> rfl
      rw [evalWithin_signed, unsigned]
      exact ih (Nat.le_of_succ_le le) scopes isFree operand respects
    | signed sign operand => exact lifts.signed values (ih lower scopes isFree operand respects)
    | binary op onLeft onRight =>
      refine lifts.binary (ih lower scopes isFree onLeft respects.1)
        (ih lower scopes isFree onRight respects.2.1) fun l r l' r' atLeft atRight hl hr => ?_
      refine .inr (h.combine hl hr fun isPower base exponent isBase isExponent => ?_)
      exact respects.2.2 isPower base exponent (isBase ▸ atLeft) (isExponent ▸ atRight)
    | other kind noScalar =>
      rw [evalWithin_not_scalar noScalar, evalWithin_not_scalar (kind ▸ noScalar), kind]
      exact .inr (.error (Fault.sameKind_refl _))
    | call given kept => exact within.call h lower scopes isFree given kept respects

end

/-- Printed trees keep their meaning. If no call is printed right in front of a single equals sign,
the text of a parsed tree is accepted under every limit from twice its height on, as the tree
without its unary plus signs, numbers compared by value. In every scope and under all settings it
evaluates then to an equal number, the same text or a fault of the same kind as the parsed tree
does, unless the parsed tree itself ends with the fault of the limit; no plus sign may stand in
front of the variable of an integral, and if the text has numbers that are not in normal form, the
powers and native calls that the evaluation takes may not tell equal numbers apart. -/
theorem printed_tree_keeps_meaning {maxDepth : Nat} {source : String} {tree : Expr}
    (parsed : parse maxDepth source = .ok tree)
    (noCall : tree.hasPart isCallBeforeAssign = false) :
    ∃ result, (∀ limit, 2 * tree.height ≤ limit → parse limit tree.render = .ok result) ∧
      result.same tree.withoutPlus = true ∧
      ∀ (settings : Settings) (s : Scope),
        (s.functions.get? integralName = none → tree.hasPart integratesOverPlus = false) →
        (tree.hasPart isScaledNumber = false ∨
          tree.RespectsNumbers Decimal.Equals settings (settings.maxDepth + 1) s) →
        tree.eval settings s ≠ .error (.depthExceeded settings.maxDepth) →
          Matches Fault.SameKind Alike (tree.eval settings s) (result.eval settings s) := by
  have printed := printed_of_isPrintable (isPrintable_of_parse parsed noCall)
  have lower := height_readBack_le tree
  refine ⟨tree.readBack, fun limit deep => ?_, readBack_same tree, ?_⟩
  · exact (printed.whole deep).parse_eq_ok (Nat.le_refl _) (by omega)
  intro settings s regular scales within
  have related : ∀ {D : Decimal → Decimal → Prop}, RelatesNumbers D →
      tree.hasPart isScaledNumber = false ∨ (∀ d, D d d.normalize) →
      tree.RespectsNumbers D settings (settings.maxDepth + 1) s →
        Matches Fault.SameKind Alike (tree.eval settings s) (tree.readBack.eval settings s) := by
    intro D h numbers respects
    have cut := matchesUpTo_readAs h (Nat.le_refl _) (Scope.RelatedBy.refl h s) id
      (readAs_readBack numbers regular h.refl) respects
    exact (cut.resolve_left within).imp fun _ _ same => same.alike h
  rcases scales with normal | respects
  · exact related relatesNumbers_eq (.inl normal) (respectsNumbers_eq _ _ _ _)
  · exact related relatesNumbers_equals (.inr Decimal.toRat_normalize) respects

/-- A plus sign in front of a name, and a number with a zero at its end. -/
theorem printed_tree_keeps_meaning_product :
    let d : Decimal := ⟨false, 150, 2, by decide, by decide⟩
    let tree : Expr := .binary .multiply (.number .two)
      (.binary .add (.signed .positive (.plain "x")) (.number d))
    parse 16 "2 * (+x + 1.50)" = .ok tree ∧ tree.hasPart isCallBeforeAssign = false ∧
      (Scope.root.functions.get? integralName = none →
        tree.hasPart integratesOverPlus = false) ∧
      (tree.hasPart isScaledNumber = false ∨
        tree.RespectsNumbers Decimal.Equals {} 1025 Scope.root) ∧
      tree.eval {} Scope.root ≠ .error (.depthExceeded 1024) ∧
      ∃ result, parse 16 tree.render = .ok result ∧ result.same tree.withoutPlus = true ∧
        Matches Fault.SameKind Alike (tree.eval {} Scope.root) (result.eval {} Scope.root) := by
  intro d tree
  have parsed : parse 16 "2 * (+x + 1.50)" = .ok tree := by decide +kernel
  have noCall : tree.hasPart isCallBeforeAssign = false := by decide
  have regular : tree.hasPart integratesOverPlus = false := by decide
  have respects : tree.RespectsNumbers Decimal.Equals {} 1025 Scope.root :=
    ⟨trivial, ⟨fun t _ carries => absurd carries.symm (Option.some_ne_none t), trivial,
      fun power => absurd power (by decide)⟩, fun power => absurd power (by decide)⟩
  have within : tree.eval {} Scope.root ≠ .error (.depthExceeded 1024) := by
    have value : tree.eval {} Scope.root = .ok (.symbolic "(2 * (x + 1.5))") := by decide +kernel
    rw [value]
    intro limit
    cases limit
  obtain ⟨result, accepted, same, outcome⟩ := printed_tree_keeps_meaning parsed noCall
  exact ⟨parsed, noCall, fun _ => regular, .inr respects, within, result,
    accepted 16 (by decide), same, outcome {} Scope.root (fun _ => regular) (.inr respects) within⟩

/-- The text of the tree of a text is accepted, and the tree that is read from it has the same
outcome in every scope under all settings. -/
def PrintingKeepsMeaning (source : String) : Prop :=
  ∀ maxDepth tree, parse maxDepth source = .ok tree → ∃ enough result,
    (∀ limit, enough ≤ limit → parse limit tree.render = .ok result) ∧
      ∀ settings s, Matches Fault.SameKind Alike (tree.eval settings s) (result.eval settings s)

/-- Printing does not keep the meaning of a text whose tree and reprinted tree have different
outcomes. -/
theorem not_printingKeepsMeaning {source : String} {tree result : Expr} {maxDepth : Nat}
    (parsed : parse maxDepth source = .ok tree) (read : parse maxDepth tree.render = .ok result)
    (settings : Settings) (s : Scope) (differ : ¬Matches Fault.SameKind Alike (tree.eval settings s)
      (result.eval settings s)) : ¬PrintingKeepsMeaning source := by
  intro keeps
  obtain ⟨enough, other, accepted, same⟩ := keeps maxDepth tree parsed
  have first := Grammar.parse_eq_ok_of_le read (Nat.le_max_right enough maxDepth)
  rw [accepted _ (Nat.le_max_left enough maxDepth)] at first
  cases first
  exact differ (same settings s)

/-- Functions that call one another, three levels deep. -/
def nestedFunctions : Table UserFunction :=
  ⟨[("f", ⟨"f", ["t"], .plain "t", "f(t) = t"⟩),
    ("g", ⟨"g", ["t"], .call "f" [.plain "t"], "g(t) = f(t)"⟩),
    ("h", ⟨"h", ["t"], .call "g" [.plain "t"], "h(t) = g(t)"⟩)]⟩

/-- Trailing zeros that are not printed count for a power with a large exponent. A plus sign is not
printed either: `+x` is no name to integrate over, and `+h(x)` comes to a limit that `h(x)` does not
reach. -/
theorem printed_tree_may_differ :
    ¬PrintingKeepsMeaning "1.005720 ^ 1026" ∧ ¬PrintingKeepsMeaning "int(x, +x, y, 1)" ∧
      ¬PrintingKeepsMeaning "+h(x)" := by
  refine ⟨?_, ?_, ?_⟩
  · let base : Decimal := ⟨false, 1005720, 6, by decide, by decide⟩
    let exponent : Decimal := ⟨false, 1026, 0, by decide, by decide⟩
    have parsed : parse 16 "1.005720 ^ 1026" =
        .ok (.binary .power (.number base) (.number exponent)) := by decide +kernel
    have read : parse 16 (Expr.binary .power (.number base) (.number exponent)).render =
        .ok (.binary .power (.number base.normalize) (.number exponent)) := by decide +kernel
    have value : ∀ {base v : Decimal}, base.pow? 1026 = some v →
        (Expr.binary .power (.number base) (.number exponent)).eval {} Scope.root =
          .ok (.number v) := by
      intro base v power
      have applied : base.power exponent = .ok v := Decimal.power_natural (by omega) power _ _
      refine evalWithin_binary_eq_ok.2 ⟨.number base, .number exponent, rfl, rfl, ?_⟩
      exact Value.combine_eq_number.2 ⟨base, exponent, rfl, rfl, applied⟩
    obtain ⟨v, v', original, again, differ⟩ : ∃ v v' : Decimal, base.pow? 1026 = some v ∧
        base.normalize.pow? 1026 = some v' ∧ v'.same v = false :=
      ⟨⟨false, 34792926322274377744223599598, 26, by decide, by decide⟩,
        ⟨false, 34792926322274377744223599599, 26, by decide, by decide⟩, by decide +kernel,
        by decide +kernel, by decide⟩
    refine not_printingKeepsMeaning parsed read {} Scope.root fun same => ?_
    rw [value original, value again] at same
    cases same with
    | ok related =>
      cases related with
      | number equal =>
        rw [Decimal.same_iff.2 equal] at differ
        cases differ
  · let tree (target : Expr) : Expr :=
      .call "int" [.plain "x", target, .plain "y", .number .one]
    have parsed : parse 16 "int(x, +x, y, 1)" = .ok (tree (.signed .positive (.plain "x"))) := by
      decide +kernel
    have read : parse 16 (tree (.signed .positive (.plain "x"))).render =
        .ok (tree (.plain "x")) := by decide +kernel
    have original : (tree (.signed .positive (.plain "x"))).eval {} Scope.root =
        .error (.unsupported (.integrationOver .signed)) := by decide +kernel
    have again : (tree (.plain "x")).eval {} Scope.root =
        .error (.arithmetic (.boundNotNumeric "y")) := by decide +kernel
    refine not_printingKeepsMeaning parsed read {} Scope.root fun same => ?_
    rw [original, again] at same
    cases same with
    | error related => exact absurd related.1 (by decide)
  · let call : Expr := .call "h" [.plain "x"]
    let s : Scope := { Scope.root with functions := nestedFunctions }
    have parsed : parse 3 "+h(x)" = .ok (.signed .positive call) := by decide +kernel
    have read : parse 3 (Expr.signed .positive call).render = .ok call := by decide +kernel
    have original : (Expr.signed .positive call).eval { maxDepth := 3 } s =
        .error (.depthExceeded 3) := by decide +kernel
    have again : call.eval { maxDepth := 3 } s = .ok (.symbolic "x") := by decide +kernel
    refine not_printingKeepsMeaning parsed read { maxDepth := 3 } s fun same => ?_
    rw [original, again] at same
    cases same

end Expr

end Reckon
