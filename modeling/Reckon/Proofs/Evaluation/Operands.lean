import Reckon.Proofs.Evaluation.Levels
import Reckon.Proofs.Evaluation.Meaning

/-!
# Values as operands

Every value that evaluation gives can be put into a larger text: its own text is read as an operand.
Once names are bound, the value becomes a number. What is written around texts, signs and operators,
does to these numbers what it does to numbers themselves, so that a computation on values becomes
the same computation on their numbers.
-/

namespace Reckon

open Grammar (Writes)

/-- The body of a function that a text defines can be read back. -/
theorem UserFunction.IsDefined.isPlain {f : UserFunction} (h : f.IsDefined)
    (noAssign : f.body.hasAssign = false) : f.body.isPlain = true := by
  obtain ⟨limit, text, defined⟩ := h
  have named : (Expr.definition f.name f.params f.body).isNamed = true :=
    Expr.isNamed_of_parse defined
  exact Expr.isPlain_iff.2 ⟨named, noAssign⟩

namespace Value

/-! ## Values that evaluation gives -/

/-- The value is a number, or it is what a text without a single equals sign evaluates to. Names may
be bound to such values, and functions to bodies without an equals sign. -/
inductive IsEvaluated : Value → Prop
  | number (d : Decimal) : IsEvaluated (.number d)
  | ofText {settings : Settings} {root : Scope} {maxDepth : Nat} {source : String} {tree : Expr}
      {w : Value} : Expr.parse maxDepth source = .ok tree → tree.hasAssign = false →
      (∀ name v, root.binding? name = some v → IsEvaluated v) →
      (∀ name f, root.functions.get? name = some f → f.IsDefined ∧ f.body.hasAssign = false) →
      tree.eval settings root = .ok w → IsEvaluated w

/-- The text of a name parses to the variable of that name. -/
theorem parse_name {name : String} (valid : Token.isIdentifier name = true) {maxDepth : Nat}
    (deep : 1 ≤ maxDepth) : Expr.parse maxDepth name = .ok (.plain name) :=
  ((Grammar.writes_name 0 valid).whole (by omega) (Nat.le_refl 5)).parse_eq_ok deep deep

/-- A name evaluates to itself where it is not bound. -/
theorem isEvaluated_name {name : String} (valid : Token.isIdentifier name = true) :
    (symbolic name).IsEvaluated := by
  let root : Scope := ⟨.empty, .empty, .empty, 0⟩
  have unbound : ∀ other v, root.binding? other = some v → v.IsEvaluated := nofun
  have undefined : ∀ other f, root.functions.get? other = some f →
      f.IsDefined ∧ f.body.hasAssign = false := nofun
  have value : (Expr.plain name).eval {} root = .ok (symbolic name) := rfl
  exact .ofText (parse_name valid (Nat.le_refl 1)) rfl unbound undefined value

/-- The text of the value is read as an operand. -/
def IsOperand (w : Value) : Prop :=
  ∃ depth e called, Writes depth 5 w.render e called

variable {w : Value}

/-- The text of a number is read as an operand. -/
theorem isOperand_number (d : Decimal) : (number d).IsOperand :=
  ⟨1, _, _, Expr.writes_signedNumber d⟩

/-- The text of a negated operand is read as an operand. -/
theorem IsOperand.negate (h : w.IsOperand) : w.negate.IsOperand := by
  cases w with
  | number d => exact isOperand_number d.neg
  | symbolic text =>
    obtain ⟨depth, e, called, writes⟩ := h
    obtain ⟨deeper, called', negated⟩ := writes.negated
    exact ⟨deeper, _, called', negated⟩

/-- The text of an operation on operands is read as an operand. -/
theorem IsOperand.combine {l r : Value} (hl : l.IsOperand) (op : Operator) (noAssign : op ≠ .assign)
    (hr : r.IsOperand) (combined : l.combine op r = .ok w) : w.IsOperand := by
  cases w with
  | number d => exact isOperand_number d
  | symbolic text =>
    obtain ⟨depth, left, called, writes⟩ := hl
    obtain ⟨depth', right, called', writes'⟩ := hr
    obtain ⟨deeper, joined⟩ := writes.combined noAssign writes'
    rw [← eq_of_combine_eq_symbolic combined] at joined
    exact ⟨deeper, _, false, joined⟩

/-- Whatever evaluation gives is an operand: names stand for operands, and nothing else but
operators, signs and calls is written around them. -/
theorem IsEvaluated.isOperand (h : w.IsEvaluated) : w.IsOperand := by
  induction h with
  | number d => exact isOperand_number d
  | @ofText settings root maxDepth source tree w parsed noAssign _ functions value bindings =>
    have same : Scope.Describing False settings.angle root root root :=
      { functions := rfl
        natives := rfl
        rootFunctions := rfl
        rootNatives := rfl
        keeps := fun _ => ⟨fun _ => id, fun _ => id⟩
        describes := by
          intro name
          cases bound : root.binding? name with
          | none => exact nofun
          | some v =>
            obtain ⟨depth, e, called, writes⟩ := bindings name v bound
            exact ⟨v, rfl, depth, e, called, writes, fun _ => False.elim⟩ }
    have bodies : ∀ name f, root.functions.get? name = some f → f.body.isPlain = true :=
      fun name f found => (functions name f found).1.isPlain (functions name f found).2
    have plain : tree.isPlain = true :=
      Expr.isPlain_iff.2 ⟨Expr.isNamed_of_parse parsed, noAssign⟩
    obtain ⟨depth, e, called, writes, _⟩ :=
      Expr.reads_evalWithin bodies same plain value value False.elim
    exact ⟨depth, e, called, writes⟩

/-- Under every limit that is large enough, the text of an operand is accepted. -/
theorem IsOperand.exists_parse (h : w.IsOperand) :
    ∃ tree enough, ∀ limit, enough ≤ limit → Expr.parse limit w.render = .ok tree := by
  obtain ⟨depth, e, called, writes⟩ := h
  exact ⟨e, max (depth + 1) e.height, fun limit le =>
    (writes.whole (by omega) (Nat.le_refl 5)).parse_eq_ok (by omega) (by omega)⟩

/-- An operand is something: only a number counts as zero. -/
theorem IsOperand.isZero_eq_false {text : String} (h : (symbolic text).IsOperand) :
    (symbolic text).isZero = false := by
  obtain ⟨depth, e, called, writes⟩ := h
  exact writes.isEmpty_eq_false

/-! ## Values that become numbers -/

/-- What a value is once names are bound: its text is evaluated. -/
def bound (settings : Settings) (s : Scope) : Value → Except Fault Value
  | number d => .ok (number d)
  | symbolic text =>
    match Expr.parse settings.maxDepth text with
    | .error fault => .error fault
    | .ok e => e.eval settings s

/-- A name becomes what it is bound to. -/
theorem bound_name {settings : Settings} {s : Scope} {name : String} {v : Value}
    (valid : Token.isIdentifier name = true) (deep : 1 ≤ settings.maxDepth)
    (isBound : s.binding? name = some v) : (symbolic name).bound settings s = .ok v := by
  rw [bound, parse_name valid deep]
  dsimp only
  rw [Expr.eval, Expr.plain, Expr.evalWithin_variable]
  simp only [Scope.valueOf, isBound]

/-- The first value becomes the second one, which is a number. A number stays what it is, and text
is read as an operand that reaches the number. -/
def Becomes (mode : AngleMode) (s : Scope) (w v : Value) : Prop :=
  w.Stays v ∧ ∃ d, v = number d ∧ ∃ depth e called levels, Writes depth 5 w.render e called ∧
    e.Reaches mode s levels d

variable {mode : AngleMode} {s : Scope} {v : Value}

/-- A number becomes itself. -/
theorem becomes_number (d : Decimal) : (number d).Becomes mode s (number d) :=
  ⟨fun _ => id, d, rfl, 1, _, _, _, Expr.writes_signedNumber d, Expr.reaches_signedNumber d⟩

/-- A name that is bound to a number becomes that number. -/
theorem becomes_name {name : String} {d : Decimal} (valid : Token.isIdentifier name = true)
    (bound : s.binding? name = some (number d)) : (symbolic name).Becomes mode s (number d) :=
  ⟨nofun, d, rfl, 0, _, _, 1, Grammar.writes_name 0 valid, Expr.reaches_plain bound rfl⟩

/-- A value becomes nothing but a number. -/
theorem Becomes.isNumeric (h : w.Becomes mode s v) : v.isNumeric = true := by
  obtain ⟨_, d, rfl, _⟩ := h
  rfl

/-- What becomes a number is read as an operand. -/
theorem Becomes.isOperand (h : w.Becomes mode s v) : w.IsOperand := by
  obtain ⟨_, _, _, depth, e, called, _, writes, _⟩ := h
  exact ⟨depth, e, called, writes⟩

/-- What counts as zero is a number, and it stays one. -/
theorem Becomes.isZero (h : w.Becomes mode s v) (zero : w.isZero = true) : v.isZero = true := by
  cases w with
  | number d =>
    rw [h.1 d rfl]
    exact zero
  | symbolic text =>
    rw [h.isOperand.isZero_eq_false] at zero
    cases zero

/-- The negated value becomes the negated number. -/
theorem Becomes.negate (h : w.Becomes mode s v) : w.negate.Becomes mode s v.negate := by
  obtain ⟨stays, d, rfl, depth, e, called, levels, writes, reaches⟩ := h
  cases w with
  | number c =>
    cases stays c rfl
    exact becomes_number d.neg
  | symbolic text =>
    obtain ⟨deeper, called', negated⟩ := writes.negated
    exact ⟨stays_withSign stays .negative, d.neg, rfl, deeper, _, called', levels + 1, negated,
      reaches.signed rfl⟩

/-- If the numbers can be combined, the values can, and the result becomes the number. -/
theorem Becomes.exists_combine {op : Operator} {l l' r r' : Value} (noAssign : op ≠ .assign)
    (noPower : op ≠ .power) (hl : l.Becomes mode s l') (hr : r.Becomes mode s r')
    (combined : l'.combine op r' = .ok v) :
    ∃ w, l.combine op r = .ok w ∧ w.Becomes mode s v := by
  obtain ⟨staysLeft, a, rfl, depth, left, called, levels, writes, reaches⟩ := hl
  obtain ⟨staysRight, b, rfl, depth', right, called', levels', writes', reaches'⟩ := hr
  obtain ⟨d, applied, rfl⟩ := combine_numbers_eq_ok.1 combined
  obtain ⟨deeper, joined⟩ := writes.combined noAssign writes'
  have first := reaches.mono (Nat.le_max_left levels levels')
  have second := reaches'.mono (Nat.le_max_right levels levels')
  have composed : (symbolic ("(" ++ l.render ++ " " ++ op.symbol ++ " " ++ r.render ++ ")")).Becomes
      mode s (number d) :=
    ⟨nofun, d, rfl, deeper, _, false, _, joined,
      first.binary second (fun power => absurd power noPower) applied⟩
  cases l with
  | symbolic text => exact ⟨_, rfl, composed⟩
  | number c =>
    cases r with
    | symbolic text => exact ⟨_, combine_symbolic_right op (number c) text, composed⟩
    | number c' =>
      cases staysLeft c rfl
      cases staysRight c' rfl
      exact ⟨_, combined, becomes_number d⟩

/-- What is evaluated with the names bound has become a number. -/
theorem IsOperand.becomes {settings : Settings} {d : Decimal} (h : w.IsOperand)
    (value : w.bound settings s = .ok (number d)) : w.Becomes settings.angle s (number d) := by
  cases w with
  | number c =>
    cases value
    exact becomes_number d
  | symbolic text =>
    obtain ⟨depth, e, called, writes⟩ := h
    rw [bound] at value
    cases parsed : Expr.parse settings.maxDepth text with
    | error fault =>
      rw [parsed] at value
      cases value
    | ok tree =>
      simp only [parsed] at value
      obtain rfl := (writes.whole (by omega) (Nat.le_refl 5)).eq_of_parse parsed
      exact ⟨nofun, d, rfl, depth, _, called, _, writes, Expr.reaches_of_evalWithin value⟩

end Value

/-- Under every limit that is large enough, the text is accepted and evaluates to the number. -/
def EvaluatesTo (settings : Settings) (s : Scope) (text : String) (q : ℚ) : Prop :=
  ∃ tree enough, ∀ limit, enough ≤ limit → Expr.parse limit text = .ok tree ∧
    ∃ v, tree.eval (settings.withMaxDepth limit) s = .ok (.number v) ∧ v.toRat = q

/-- The text of what becomes a number is accepted and evaluates to that number, under every limit
that is large enough. -/
theorem Value.Becomes.evaluatesTo {settings : Settings} {s : Scope} {w : Value} {d : Decimal}
    (h : w.Becomes settings.angle s (.number d)) : EvaluatesTo settings s w.render d.toRat := by
  obtain ⟨_, c, same, depth, e, called, levels, writes, reaches⟩ := h
  cases same
  have whole := writes.whole (by omega) (Nat.le_refl 5)
  refine ⟨e, max (max (depth + 1) e.height) levels, fun limit le => ⟨?_, ?_⟩⟩
  · exact whole.parse_eq_ok (by omega) (by omega)
  · exact reaches (settings.withMaxDepth limit) (limit + 1) rfl (by omega)

end Reckon
