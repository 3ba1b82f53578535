import Reckon.Proofs.Evaluation.Texts
import Reckon.Proofs.Syntax.RoundTrip
import Reckon.Session

/-!
# Symbolic results keep their meaning

A tree that evaluates to text is evaluated in part: what could be computed is written down as a
number, and the names that were left are mentioned. The text is accepted by the parser, and once the
names are bound it evaluates to the number that the tree evaluates to. Two evaluations run side by
side, without the names and with them; a relation between their scopes says of every binding how its
text is read.
-/

namespace Reckon

namespace Expr

/-! ## Which trees and which computations -/

mutual

/-- Whether a single equals sign stands between two operands. -/
def hasAssign : Expr → Bool
  | .number _ => false
  | .variable _ _ => false
  | .signed _ operand => operand.hasAssign
  | .binary op left right => op == .assign || left.hasAssign || right.hasAssign
  | .vector items => anyHasAssign items
  | .matrix columns => anyHasAssign columns
  | .definition _ _ body => body.hasAssign
  | .call _ args => anyHasAssign args

/-- Whether a single equals sign stands between two operands in one of some trees. -/
def anyHasAssign : List Expr → Bool
  | [] => false
  | e :: es => e.hasAssign || anyHasAssign es

end

/-- Some trees have no single equals sign exactly when none of them has one. -/
theorem anyHasAssign_eq_false_iff {es : List Expr} :
    anyHasAssign es = false ↔ ∀ e ∈ es, e.hasAssign = false := by
  induction es with
  | nil => simp [anyHasAssign]
  | cons e es ih => simp [anyHasAssign, ih]

/-- The powers and native calls of an evaluation depend on the values of their operands and not on
how these are scaled. Small integer powers do so anyway, and integrals are never part of a text. -/
def DependsOnValues (settings : Settings) : (levels : Nat) → Scope → Expr → Prop
  | 0, _, _ => True
  | levels + 1, s, e =>
    match e with
    | .number _ => True
    | .variable _ _ => True
    | .signed _ operand => DependsOnValues settings levels s operand
    | .binary op left right =>
      DependsOnValues settings levels s left ∧ DependsOnValues settings levels s right ∧
        (op = .power → ∀ base exponent, evalWithin settings levels s left = .ok (.number base) →
          evalWithin settings levels s right = .ok (.number exponent) →
            exponent.isSmallInteger = false → Decimal.PowerByValue base exponent)
    | .call name args =>
      match s.functions.get? name with
      | some f =>
        (∀ arg ∈ args, DependsOnValues settings levels s arg) ∧
          ∀ values, args.mapM (fun arg => evalWithin settings levels s arg) = .ok values →
            DependsOnValues settings levels (s.child.bindAll (f.params.zip values)) f.body
      | none =>
        name ≠ integralName →
          (∀ arg ∈ args, DependsOnValues settings levels s arg) ∧
            ∀ (native : Native) (numbers : List Decimal), s.natives.get? name = some native →
              args.mapM (fun arg => evalWithin settings levels s arg) =
                  .ok (numbers.map .number) →
                NativeByValue settings name native numbers
    | .vector _ => True
    | .matrix _ => True
    | .definition _ _ _ => True

end Expr

/-! ## Scopes side by side -/

namespace Scope

variable {assumption : Prop} {mode : AngleMode} {root s s' : Scope}

/-- What the first scope binds to a name is read as what the second one binds to it. A name that is
not bound stands for its binding in the root, if it has become a number. -/
def Describes (assumption : Prop) (mode : AngleMode) (root : Scope) (name : String)
    (x x' : Option Value) : Prop :=
  match x with
  | some w => ∃ w', x' = some w' ∧ Reads assumption mode root w.render w'
  | none => ∀ v, x' = some (.number v) → root.binding? name = some (.number v)

/-- The first scope is that of an evaluation in part, the second one that of the evaluation with
more names bound, and the root is where the text is evaluated. -/
structure Describing (assumption : Prop) (mode : AngleMode) (root s s' : Scope) : Prop
    extends s.NumbersStay s' where
  rootFunctions : root.functions = s.functions
  rootNatives : root.natives = s.natives
  describes : ∀ name, Describes assumption mode root name (s.binding? name) (s'.binding? name)

/-- All constants are numbers. -/
theorem constants_eq_number {name : String} {w : Value} (h : constants.get? name = some w) :
    ∃ d, w = .number d := by
  simp only [constants, Table.get?, List.lookup_cons, List.lookup_nil] at h
  repeat' split at h
  all_goals cases h
  all_goals exact ⟨_, rfl⟩

/-- A constant is described by itself. -/
theorem describes_constants (name : String) :
    Describes assumption mode root name (constants.get? name) (constants.get? name) := by
  cases found : constants.get? name with
  | none => exact nofun
  | some w =>
    obtain ⟨d, rfl⟩ := constants_eq_number found
    exact ⟨_, rfl, reads_number d⟩

/-- The scopes of a call are related if the arguments are. -/
theorem Describing.call (h : Describing assumption mode root s s') (params : List String)
    {values values' : List Value} (stays : List.Forall₂ Value.Stays values values')
    (reads : List.Forall₂ (fun w w' => Reads assumption mode root w.render w') values values') :
    Describing assumption mode root (s.child.bindAll (params.zip values))
      (s'.child.bindAll (params.zip values')) where
  toNumbersStay := h.toNumbersStay.call params stays
  rootFunctions := h.rootFunctions
  rootNatives := h.rootNatives
  describes := Table.get?_insertAll_zip describes_constants params
    (reads.imp fun _ w' h _ => ⟨w', rfl, h⟩)

/-- A variable of a parsed tree is read as its later value. -/
theorem Describing.reads_valueOf (h : Describing assumption mode root s s') {name : String}
    (valid : Token.isIdentifier name = true) {w w' : Value}
    (first : s.valueOf name none = .ok w) (second : s'.valueOf name none = .ok w') :
    Reads assumption mode root w.render w' := by
  have described := h.describes name
  unfold valueOf at first second
  cases own : s.binding? name with
  | some value =>
    rw [own] at first described
    cases first
    obtain ⟨value', own', reads⟩ := described
    rw [own'] at second
    cases second
    exact reads
  | none =>
    rw [own] at first described
    cases first
    refine reads_name valid fun v number => ?_
    subst number
    cases own' : s'.binding? name with
    | none =>
      rw [own'] at second
      cases second
    | some value =>
      rw [own'] at second
      cases second
      exact described v own'

end Scope

/-! ## Evaluation side by side -/

namespace Expr

variable {assumption : Prop} {settings : Settings} {root : Scope}

/-- Whether the parser can have made the tree, without a single equals sign between operands. -/
def isPlain (e : Expr) : Bool :=
  e.isNamed && !e.hasAssign

/-- A tree is plain exactly when its names can be read and no single equals sign stands between
operands. -/
theorem isPlain_iff {e : Expr} : e.isPlain = true ↔ e.isNamed = true ∧ e.hasAssign = false := by
  rw [isPlain, Bool.and_eq_true, Bool.not_eq_true']

/-- A plain variable carries no monomial and has a name that can be read. -/
theorem isPlain_variable {name : String} {term : Option Monomial}
    (h : (Expr.variable name term).isPlain = true) :
    term = none ∧ Token.isIdentifier name = true := by
  rw [isPlain_iff, isNamed, Bool.and_eq_true, Option.isNone_iff_eq_none] at h
  exact h.1

/-- A plain operation is no assignment, and both operands are plain. -/
theorem isPlain_binary {op : Operator} {left right : Expr}
    (h : (binary op left right).isPlain = true) :
    op ≠ .assign ∧ left.isPlain = true ∧ right.isPlain = true := by
  rw [isPlain_iff, isNamed, hasAssign, Bool.and_eq_true, Bool.or_eq_false_iff,
    Bool.or_eq_false_iff, beq_eq_false_iff_ne] at h
  obtain ⟨⟨hl, hr⟩, ⟨noAssign, hl'⟩, hr'⟩ := h
  exact ⟨noAssign, isPlain_iff.2 ⟨hl, hl'⟩, isPlain_iff.2 ⟨hr, hr'⟩⟩

/-- A plain call has a name that can be read and plain arguments. -/
theorem isPlain_call {name : String} {args : List Expr} (h : (call name args).isPlain = true) :
    Token.isIdentifier name = true ∧ ∀ arg ∈ args, arg.isPlain = true := by
  rw [isPlain_iff, isNamed, hasAssign, Bool.and_eq_true, areNamed_iff,
    anyHasAssign_eq_false_iff] at h
  obtain ⟨⟨valid, named⟩, noAssign⟩ := h
  exact ⟨valid, fun arg mem => isPlain_iff.2 ⟨named arg mem, noAssign arg mem⟩⟩

/-- Powers in the text have the value they had in the tree. -/
theorem DependsOnValues.power {levels : Nat} {s : Scope} {op : Operator} {left right : Expr}
    (h : DependsOnValues settings (levels + 1) s (.binary op left right)) (power : op = .power)
    {base exponent : Decimal} (hl : evalWithin settings levels s left = .ok (.number base))
    (hr : evalWithin settings levels s right = .ok (.number exponent)) :
    Decimal.PowerByValue base exponent := by
  cases small : exponent.isSmallInteger with
  | true => exact Decimal.powerByValue_of_isSmallInteger base small
  | false => exact h.2.2 power base exponent hl hr small

/-- A call of a user function depends on values in its arguments and in the body, with the
parameters bound to what the arguments evaluate to. -/
theorem DependsOnValues.user {levels : Nat} {s : Scope} {name : String} {args : List Expr}
    (h : DependsOnValues settings (levels + 1) s (.call name args)) {f : UserFunction}
    (found : s.functions.get? name = some f) :
    (∀ arg ∈ args, DependsOnValues settings levels s arg) ∧
      ∀ values, args.mapM (fun arg => evalWithin settings levels s arg) = .ok values →
        DependsOnValues settings levels (s.child.bindAll (f.params.zip values)) f.body := by
  rw [DependsOnValues, found] at h
  exact h

/-- A call of a native function depends on values in its arguments and in the function. -/
theorem DependsOnValues.native {levels : Nat} {s : Scope} {name : String} {args : List Expr}
    (h : DependsOnValues settings (levels + 1) s (.call name args))
    (free : s.functions.get? name = none) (other : name ≠ integralName) :
    (∀ arg ∈ args, DependsOnValues settings levels s arg) ∧
      ∀ (native : Native) (numbers : List Decimal), s.natives.get? name = some native →
        args.mapM (fun arg => evalWithin settings levels s arg) = .ok (numbers.map .number) →
          NativeByValue settings name native numbers := by
  rw [DependsOnValues, free] at h
  exact h other

/-- Up to a number of levels, the text of what a tree evaluates to in part is read as what the tree
evaluates to with more names bound. -/
def ReadWithin (assumption : Prop) (settings : Settings) (root : Scope) (levels : Nat) : Prop :=
  ∀ ⦃s s' : Scope⦄ ⦃e : Expr⦄ ⦃w w' : Value⦄,
    Scope.Describing assumption settings.angle root s s' → e.isPlain = true →
    evalWithin settings levels s e = .ok w → evalWithin settings levels s' e = .ok w' →
    (assumption → DependsOnValues settings levels s' e) →
      Reads assumption settings.angle root w.render w'

namespace ReadWithin

variable {levels : Nat} {s s' : Scope} {name : String} {args : List Expr} {text : String}
  {w' : Value}

/-- The texts of arguments are read as what the arguments evaluate to. -/
theorem arguments (ih : ReadWithin assumption settings root levels)
    (h : Scope.Describing assumption settings.angle root s s')
    (plain : ∀ arg ∈ args, arg.isPlain = true)
    (byValue : assumption → ∀ arg ∈ args, DependsOnValues settings levels s' arg)
    {values values' : List Value}
    (given : args.mapM (fun arg => evalWithin settings levels s arg) = .ok values)
    (given' : args.mapM (fun arg => evalWithin settings levels s' arg) = .ok values') :
    List.Forall₂ (fun w w' => Reads assumption settings.angle root w.render w') values values' :=
  forall₂_of_mapM (fun arg mem _ _ first second =>
    ih h (plain arg mem) first second fun assumed => byValue assumed arg mem) given given'

/-- The text of a call of a user function is that of its body. -/
theorem user (ih : ReadWithin assumption settings root levels)
    (h : Scope.Describing assumption settings.angle root s s')
    (plain : (Expr.call name args).isPlain = true) {f : UserFunction}
    (found : s.functions.get? name = some f) (plainBody : f.body.isPlain = true) {w : Value}
    (first : evalWithin settings (levels + 1) s (.call name args) = .ok w)
    (second : evalWithin settings (levels + 1) s' (.call name args) = .ok w')
    (byValue : assumption → DependsOnValues settings (levels + 1) s' (.call name args)) :
    Reads assumption settings.angle root w.render w' := by
  have found' : s'.functions.get? name = some f := by rw [h.functions, found]
  obtain ⟨_, values, given, result⟩ := (evalWithin_user_eq_ok found).1 first
  obtain ⟨_, values', given', result'⟩ := (evalWithin_user_eq_ok found').1 second
  have stays : List.Forall₂ Value.Stays values values' :=
    forall₂_of_mapM (fun _ _ _ _ => stays_evalWithin h.toNumbersStay) given given'
  have reads := ih.arguments h (isPlain_call plain).2
    (fun assumed => ((byValue assumed).user found').1) given given'
  exact ih (h.call f.params stays reads) plainBody result result' fun assumed =>
    ((byValue assumed).user found').2 values' given'

/-- The text of a call of a native function is the call with the texts of its arguments. -/
theorem native (ih : ReadWithin assumption settings root levels)
    (h : Scope.Describing assumption settings.angle root s s')
    (plain : (Expr.call name args).isPlain = true) (free : s.functions.get? name = none)
    (other : name ≠ integralName)
    (first : evalWithin settings (levels + 1) s (.call name args) = .ok (.symbolic text))
    (second : evalWithin settings (levels + 1) s' (.call name args) = .ok w')
    (byValue : assumption → DependsOnValues settings (levels + 1) s' (.call name args)) :
    Reads assumption settings.angle root (Value.symbolic text).render w' := by
  obtain ⟨valid, plainArgs⟩ := isPlain_call plain
  have free' : s'.functions.get? name = none := by rw [h.functions, free]
  obtain ⟨native, values, known, given, called⟩ := (evalWithin_native_eq_ok free other).1 first
  obtain ⟨native', values', known', given', called'⟩ :=
    (evalWithin_native_eq_ok free' other).1 second
  have same : native' = native := by
    rw [h.natives, known] at known'
    exact (Option.some.inj known').symm
  subst same
  have reads := ih.arguments h plainArgs
    (fun assumed => ((byValue assumed).native free' other).1) given given'
  have agree : assumption → ∀ numbers : List Decimal, values' = numbers.map .number →
      NativeByValue settings name native' numbers := by
    intro assumed numbers same
    exact ((byValue assumed).native free' other).2 native' numbers known' (same ▸ given')
  rw [Value.eq_of_callNative_eq_symbolic called]
  exact reads_callNative valid (by rw [h.rootFunctions, free]) other
    (by rw [h.rootNatives, known]) reads agree called'

/-- The text of a call. An integral is always a number. -/
theorem call (ih : ReadWithin assumption settings root levels)
    (h : Scope.Describing assumption settings.angle root s s')
    (functions : ∀ name f, root.functions.get? name = some f → f.body.isPlain = true)
    (plain : (Expr.call name args).isPlain = true)
    (first : evalWithin settings (levels + 1) s (.call name args) = .ok (.symbolic text))
    (second : evalWithin settings (levels + 1) s' (.call name args) = .ok w')
    (byValue : assumption → DependsOnValues settings (levels + 1) s' (.call name args)) :
    Reads assumption settings.angle root (Value.symbolic text).render w' := by
  cases user : s.functions.get? name with
  | some f =>
    have plainBody := functions name f (by rw [h.rootFunctions, user])
    exact ih.user h plain user plainBody first second byValue
  | none =>
    by_cases integral : name = integralName
    · subst integral
      rw [evalWithin_integral user, integralForm_eq_ok] at first
      obtain ⟨_, _, _, _, _, _, _, _, _, _, _, same⟩ := first
      cases same
    · exact ih.native h plain user integral first second byValue

end ReadWithin

/-- The text of a value is read as a tree that evaluates to what the value becomes. -/
theorem reads_evalWithin {levels : Nat}
    (functions : ∀ name f, root.functions.get? name = some f → f.body.isPlain = true) :
    ReadWithin assumption settings root levels := by
  intro s s' e w w' h plain first second byValue
  induction levels generalizing s s' e w w' with
  | zero => exact absurd first evalWithin_zero_ne_ok
  | succ levels ih =>
    have within : ReadWithin assumption settings root levels := ih
    -- Numbers are not made of texts, whatever they were computed from.
    cases w with
    | number d =>
      rw [stays_evalWithin h.toNumbersStay first second d rfl]
      exact reads_number d
    | symbolic text =>
      cases e with
      | number d =>
        rw [evalWithin_number_eq_ok] at first
        cases first
      | «variable» name term =>
        obtain ⟨rfl, valid⟩ := isPlain_variable plain
        rw [evalWithin_variable] at first second
        exact h.reads_valueOf valid first second
      | signed sign e =>
        obtain ⟨v, value, rendered⟩ := evalWithin_signed_eq_ok.1 first
        obtain ⟨v', value', rfl⟩ := evalWithin_signed_eq_ok.1 second
        have plainOperand : e.isPlain = true := plain
        exact (ih h plainOperand value value' byValue).withSign rendered.symm
      | binary op left right =>
        obtain ⟨noAssign, plainLeft, plainRight⟩ := isPlain_binary plain
        obtain ⟨l, r, hl, hr, combined⟩ := evalWithin_binary_eq_ok.1 first
        obtain ⟨l', r', hl', hr', combined'⟩ := evalWithin_binary_eq_ok.1 second
        have before := ih h plainLeft hl hl' fun assumed => (byValue assumed).1
        have after := ih h plainRight hr hr' fun assumed => (byValue assumed).2.1
        have power : assumption → op = .power → ∀ a b, l' = .number a → r' = .number b →
            Decimal.PowerByValue a b := by
          intro assumed isPower a b left right
          exact (byValue assumed).power isPower (left ▸ hl') (right ▸ hr')
        rw [Value.eq_of_combine_eq_symbolic combined]
        exact before.combine noAssign after power combined'
      | vector items => exact absurd first evalWithin_vector_ne_ok
      | matrix columns => exact absurd first evalWithin_matrix_ne_ok
      | definition name params body => exact absurd first evalWithin_definition_ne_ok
      | call name args => exact within.call h functions plain first second byValue

end Expr

/-! ## Symbolic results -/

/-- The function comes from a text that defines it. -/
def UserFunction.IsDefined (f : UserFunction) : Prop :=
  ∃ maxDepth text, Expr.parse maxDepth text = .ok (.definition f.name f.params f.body)

namespace Scope

variable {assumption : Prop} {mode : AngleMode} {root : Scope}

/-- The scope with some names bound to numbers. -/
def extended (s : Scope) (added : List (String × Decimal)) : Scope :=
  s.bindAll (added.map fun entry => (entry.1, .number entry.2))

/-- Binding some names is binding the first one and then the others. -/
theorem extended_cons (s : Scope) (entry : String × Decimal) (added : List (String × Decimal)) :
    s.extended (entry :: added) = (s.bind entry.1 (.number entry.2)).extended added := rfl

/-- Binding names to numbers adds no functions. -/
theorem functions_extended (s : Scope) (added : List (String × Decimal)) :
    (s.extended added).functions = s.functions := rfl

/-- Binding names to numbers adds no native functions. -/
theorem natives_extended (s : Scope) (added : List (String × Decimal)) :
    (s.extended added).natives = s.natives := rfl

/-- Names that are not among the added ones keep their bindings. -/
theorem binding?_extended_of_forall_ne {s : Scope} {added : List (String × Decimal)} {name : String}
    (other : ∀ entry ∈ added, entry.1 ≠ name) :
    (s.extended added).binding? name = s.binding? name := by
  induction added generalizing s with
  | nil => rfl
  | cons entry added ih =>
    have first := other entry List.mem_cons_self
    rw [extended_cons, ih fun later mem => other later (List.mem_cons_of_mem entry mem),
      binding?_bind, if_neg first.symm]

/-- Names without a binding may get one, and the others keep theirs. -/
theorem binding?_extended_of_bound {added : List (String × Decimal)}
    (free : ∀ entry ∈ added, root.binding? entry.1 = none) {name : String} {w : Value}
    (bound : root.binding? name = some w) : (root.extended added).binding? name = some w := by
  rw [binding?_extended_of_forall_ne, bound]
  intro entry mem same
  have none := free entry mem
  rw [same, bound] at none
  cases none

/-- A root scope of numbers is related to every scope that binds more numbers. -/
theorem describing_extended (numeric : ∀ name w, root.binding? name = some w → ∃ d, w = .number d)
    (constant : ∀ name, constants.contains name = true → (root.binding? name).isSome = true)
    {added : List (String × Decimal)} (free : ∀ entry ∈ added, root.binding? entry.1 = none) :
    Describing assumption mode (root.extended added) root (root.extended added) where
  functions := functions_extended root added
  natives := natives_extended root added
  rootFunctions := functions_extended root added
  rootNatives := natives_extended root added
  keeps name := by
    refine ⟨fun isConstant missing => ?_, fun _ => binding?_extended_of_bound free⟩
    have bound := constant name isConstant
    rw [missing] at bound
    cases bound
  describes name := by
    cases bound : root.binding? name with
    | none => exact fun _ => id
    | some w =>
      obtain ⟨d, rfl⟩ := numeric name w bound
      exact ⟨_, binding?_extended_of_bound free bound, reads_number d⟩

end Scope

namespace Expr

/-- Symbolic results keep their meaning. If a parsed tree without a single equals sign evaluates to
text in a scope of numbers, the parser accepts the text under every limit that is large enough; and
whichever numbers the names without a binding get, when the tree evaluates to a number then, so does
the parsed text, and it is the same number. Powers with fractions or large exponents and native
functions are taken to depend on the values of their operands only. -/
theorem symbolic_result_keeps_meaning {settings : Settings} {root : Scope} {tree : Expr}
    {maxDepth : Nat} {source text : String} (parsed : parse maxDepth source = .ok tree)
    (noAssign : tree.hasAssign = false)
    (numeric : ∀ name w, root.binding? name = some w → ∃ d, w = .number d)
    (constant : ∀ name, Scope.constants.contains name = true → (root.binding? name).isSome = true)
    (functions : ∀ name f, root.functions.get? name = some f →
      f.IsDefined ∧ f.body.hasAssign = false)
    (symbolic : tree.eval settings root = .ok (.symbolic text)) :
    ∃ result enough, (∀ limit, enough ≤ limit → parse limit text = .ok result) ∧
      ∀ added : List (String × Decimal), (∀ entry ∈ added, root.binding? entry.1 = none) →
        tree.DependsOnValues settings (settings.maxDepth + 1) (root.extended added) →
        ∀ v, tree.eval settings (root.extended added) = .ok (.number v) →
          ∀ limit, enough ≤ limit → ∃ v',
            result.eval (settings.withMaxDepth limit) (root.extended added) = .ok (.number v') ∧
              v'.same v = true := by
  have plain : tree.isPlain = true := isPlain_iff.2 ⟨isNamed_of_parse parsed, noAssign⟩
  have bodies : ∀ name f, root.functions.get? name = some f → f.body.isPlain = true := by
    intro name f found
    obtain ⟨⟨limit, text, defined⟩, noAssign⟩ := functions name f found
    have named : (definition f.name f.params f.body).isNamed = true := isNamed_of_parse defined
    exact isPlain_iff.2 ⟨named, noAssign⟩
  -- The text is read in the same way whatever is bound later: it is read with nothing bound.
  have nothing : ∀ entry ∈ ([] : List (String × Decimal)), root.binding? entry.1 = none := nofun
  obtain ⟨depth, result, called, writes, _⟩ :=
    reads_evalWithin bodies (Scope.describing_extended numeric constant nothing) plain symbolic
      symbolic False.elim
  have whole := writes.whole (by omega) (Nat.le_refl 5)
  refine ⟨result, max (depth + 1) result.height, fun limit le => ?_, ?_⟩
  · exact whole.parse_eq_ok (by omega) (by omega)
  intro added free byValue v value limit le
  obtain ⟨depth', result', called', writes', yields⟩ :=
    reads_evalWithin (Scope.functions_extended root added ▸ bodies)
      (Scope.describing_extended numeric constant free) plain symbolic value fun assumed => assumed
  have whole' := writes'.whole (by omega) (Nat.le_refl 5)
  have same : result' = result := by
    have positive := result.height_pos
    have positive' := result'.height_pos
    have one : parse (depth + depth' + result.height + result'.height) text = .ok result :=
      whole.parse_eq_ok (by omega) (by omega)
    have other : parse (depth + depth' + result.height + result'.height) text = .ok result' :=
      whole'.parse_eq_ok (by omega) (by omega)
    rw [one] at other
    exact (Except.ok.inj other).symm
  subst same
  have high : result'.height ≤ (settings.withMaxDepth limit).maxDepth + 1 := by
    change result'.height ≤ limit + 1
    omega
  obtain ⟨v', evaluated, equal⟩ := yields v byValue rfl (settings.withMaxDepth limit) _ rfl high
  exact ⟨v', evaluated, Decimal.same_iff.2 equal⟩

/-- The square of a name in a difference, where the name becomes 3. -/
theorem symbolic_result_keeps_meaning_square :
    let square : UserFunction :=
      ⟨"f", ["t"], .binary .multiply (.plain "t") (.plain "t"), "f(t) = t * t"⟩
    let root : Scope := { Scope.root with functions := ⟨[("f", square)]⟩ }
    let tree : Expr := .binary .subtract (.number .two) (.call "f" [.plain "x"])
    let bound : Scope := root.extended [("x", .three)]
    let v : Decimal := ⟨true, 7, 0, by decide, by decide⟩
    parse 16 "2 - f(x)" = .ok tree ∧ tree.hasAssign = false ∧
      (∀ name w, root.binding? name = some w → ∃ d, w = .number d) ∧
      (∀ name, Scope.constants.contains name = true → (root.binding? name).isSome = true) ∧
      (∀ name f, root.functions.get? name = some f → f.IsDefined ∧ f.body.hasAssign = false) ∧
      tree.eval {} root = .ok (.symbolic "(2 - (x * x))") ∧
      tree.DependsOnValues {} 1025 bound ∧ tree.eval {} bound = .ok (.number v) ∧
      ∃ result enough, ∀ limit, enough ≤ limit →
        parse limit "(2 - (x * x))" = .ok result ∧ ∃ v',
          result.eval (Settings.withMaxDepth {} limit) bound = .ok (.number v') ∧
            v'.same v = true := by
  intro square root tree bound v
  have parsed : parse 16 "2 - f(x)" = .ok tree := by
    have printed := printed_of_isPrintable (show tree.isPrintable = true by decide)
    exact (printed.whole (by decide)).parse_eq_ok (Nat.le_refl 16) (by decide)
  have defined : square.IsDefined := by
    have printed := printed_of_isPrintable
      (show (definition square.name square.params square.body).isPrintable = true by decide)
    exact ⟨16, "f(t) = t * t", (printed.whole (by decide)).parse_eq_ok (Nat.le_refl 16) (by decide)⟩
  have numeric : ∀ name w, root.binding? name = some w → ∃ d, w = .number d :=
    fun _ _ => Scope.constants_eq_number
  have constant : ∀ name, Scope.constants.contains name = true →
      (root.binding? name).isSome = true := fun _ => id
  have functions : ∀ name f, root.functions.get? name = some f →
      f.IsDefined ∧ f.body.hasAssign = false := by
    intro name f found
    change [("f", square)].lookup name = some f at found
    rw [List.lookup_cons] at found
    split at found
    · cases found
      exact ⟨defined, by decide⟩
    · cases found
  have symbolic : tree.eval {} root = .ok (.symbolic "(2 - (x * x))") := rfl
  have byValue : tree.DependsOnValues {} 1025 bound := by
    refine ⟨trivial, ⟨fun arg mem => ?_, fun values _ => ⟨trivial, trivial, nofun⟩⟩, nofun⟩
    rw [List.mem_singleton.1 mem]
    trivial
  have free : ∀ entry ∈ [("x", Decimal.three)], root.binding? entry.1 = none := by
    intro entry mem
    rw [List.mem_singleton.1 mem]
    decide
  have value : tree.eval {} bound = .ok (.number v) := rfl
  obtain ⟨result, enough, accepted, evaluated⟩ :=
    symbolic_result_keeps_meaning parsed rfl numeric constant functions symbolic
  refine ⟨parsed, rfl, numeric, constant, functions, symbolic, byValue, value, result, enough, ?_⟩
  intro limit le
  exact ⟨accepted limit le, evaluated _ free byValue v value limit le⟩

/-- A power of a number with a name as exponent. -/
theorem writes_power {base : Decimal} (positive : base.negative = false) :
    Grammar.Writes 0 4 (base.text ++ " ^ " ++ "n") (.binary .power (.number base) (.plain "n"))
      false := by
  have between : ∀ {cs ks}, Token.Spells cs ks →
      Grammar.Tail (" ^ ".toList ++ cs) (.operator .power :: ks) := by
    intro cs ks spells
    exact .spaced .power spells
  have number := (Grammar.writes_number 0 positive).loosen (by omega : 4 ≤ 5) (Nat.le_refl 5)
  exact .joined rfl between nofun number (Grammar.writes_name 0 (by decide))

/-- Trailing zeros count for a power with a large exponent, and they are not written in the text. -/
theorem text_of_power_loses_scale :
    let base : Decimal := ⟨false, 1005720, 6, by decide, by decide⟩
    let exponent : Decimal := ⟨false, 1026, 0, by decide, by decide⟩
    let tree : Expr := .binary .power (.number base) (.plain "n")
    let result : Expr := .binary .power (.number base.normalize) (.plain "n")
    let bound : Scope := Scope.root.extended [("n", exponent)]
    let v : Decimal := ⟨false, 34792926322274377744223599598, 26, by decide, by decide⟩
    let v' : Decimal := ⟨false, 34792926322274377744223599599, 26, by decide, by decide⟩
    parse 16 "1.005720 ^ n" = .ok tree ∧ tree.hasAssign = false ∧
      Scope.root.binding? "n" = none ∧
      tree.eval {} Scope.root = .ok (.symbolic "(1.00572 ^ n)") ∧
      tree.eval {} bound = .ok (.number v) ∧
      ∀ limit, 2 ≤ limit → parse limit "(1.00572 ^ n)" = .ok result ∧
        result.eval (Settings.withMaxDepth {} limit) bound = .ok (.number v') ∧
          v'.same v = false := by
  intro base exponent tree result bound v v'
  have evaluated : ∀ (settings : Settings) (levels : Nat) {base v : Decimal},
      base.pow? 1026 = some v →
      (Expr.binary .power (.number base) (.plain "n")).evalWithin settings (levels + 2) bound =
        .ok (.number v) := by
    intro settings levels base v value
    have power : base.power exponent = .ok v := Decimal.power_natural (by omega) value _ _
    refine evalWithin_binary_eq_ok.2 ⟨.number base, .number exponent, rfl, rfl, ?_⟩
    exact Value.combine_eq_number.2 ⟨base, exponent, rfl, rfl, power⟩
  have source : Grammar.Writes 0 4 (base.text ++ " ^ " ++ "n") tree false := writes_power rfl
  have written : Grammar.Writes 0 4 (base.normalize.text ++ " ^ " ++ "n") result false :=
    writes_power rfl
  rw [show base.text ++ " ^ " ++ "n" = "1.005720 ^ n" by decide] at source
  rw [show base.normalize.text ++ " ^ " ++ "n" = "1.00572 ^ n" by decide] at written
  have whole := (written.whole (by omega) (by omega)).parenthesized.whole (by omega) (by omega)
  refine ⟨?_, rfl, by decide, ?_, ?_, fun limit deep => ⟨?_, ?_, by decide⟩⟩
  · exact (source.whole (by omega) (by omega)).parse_eq_ok (by omega) (by decide)
  · refine evalWithin_binary_eq_ok.2 ⟨.number base, .symbolic "n", rfl, rfl, ?_⟩
    rw [Value.combine_symbolic_right]
    decide
  · exact evaluated {} 1023 (by decide +kernel)
  · exact whole.parse_eq_ok deep deep
  · obtain ⟨more, rfl⟩ := Nat.exists_eq_add_of_le' deep
    exact evaluated _ (more + 1) (by decide +kernel)

end Expr

end Reckon
