import Reckon.Proofs.Calculus.DerivativeText
import Reckon.Proofs.Evaluation.Levels
import Reckon.Proofs.Session.Limit
import Reckon.Proofs.Syntax.Concatenation

/-!
# Constant factors

A derivative that is text stays text when the tree is divided by a number, or multiplied by one that
does not become zero on the way: the number is rounded to the precision in force and then multiplied
into the numbers that lead the derivative, and a product of decimals may vanish. The tree itself is
evaluated as a factor, which differentiating it alone need not do, and it stands one level deeper.
-/

namespace Reckon

namespace Expr

/-! ## The number in front -/

/-- What a number has become when it has been multiplied into the numbers that lead a product, as far
as there is room. A factor 1 is dropped before it meets the next one. -/
def leadingFactor (c : Decimal) (e : Expr) : Decimal :=
  if c.same .one then c
  else
    match e with
    | .binary .multiply (.number x) rest =>
      match c.mul? x with
      | some product => leadingFactor product.normalize rest
      | none => c
    | _ => c

/-- A factor that is zero makes the number in front zero. -/
theorem isZero_leadingFactor {c : Decimal} (zero : c.isZero = true) (e : Expr) :
    (leadingFactor c e).isZero = true := by
  fun_induction leadingFactor c e with
  | case1 => exact zero
  | case2 c _ x rest product multiplied ih =>
    have none : product = .zero := by
      rw [Decimal.mul?, zero] at multiplied
      exact (Option.some.inj multiplied).symm
    refine ih ?_
    rw [none]
    decide
  | case3 => exact zero
  | case4 => exact zero

section

variable {settings : Settings} {levels : Nat} {scope : Scope} {c d : Decimal} {e : Expr}
  {text : String}

/-- What evaluates to text is no number. -/
theorem number?_of_evaluates_symbolic
    (value : e.evalWithin settings levels scope = .ok (.symbolic text)) : e.number? = none := by
  cases e with
  | number d =>
    cases levels with
    | zero => cases value
    | succ levels => cases value
  | _ => rfl

/-- A tree that evaluates to text is no number. -/
theorem isNumber_of_evaluates_symbolic
    (value : e.evalWithin settings levels scope = .ok (.symbolic text)) (d : Decimal) :
    e.isNumber d = false := by
  rw [isNumber, number?_of_evaluates_symbolic value]

/-- With text on one side an operation has text as its value. -/
theorem exists_symbolic_product (value : e.evalWithin settings levels scope = .ok (.symbolic text))
    (c : Decimal) : ∃ text', (binary .multiply (.number c) e).evalWithin settings (levels + 1) scope =
      .ok (.symbolic text') := by
  cases levels with
  | zero => cases value
  | succ levels =>
    rw [evalWithin_binary, value]
    exact ⟨_, Value.combine_symbolic_right .multiply (.number c) text⟩

/-- A product with a number that has text as its value has it from its other factor. -/
theorem exists_symbolic_behind {c : Decimal} {e : Expr}
    (value : (binary .multiply (.number c) e).evalWithin settings levels scope =
      .ok (.symbolic text)) :
    ∃ below behind, levels = below + 1 ∧
      e.evalWithin settings below scope = .ok (.symbolic behind) := by
  cases levels with
  | zero => cases value
  | succ below =>
    obtain ⟨l, r, onLeft, onRight, combined⟩ := evalWithin_binary_eq_ok.1 value
    cases below with
    | zero => cases onLeft
    | succ below =>
      cases evalWithin_number_eq_ok.1 onLeft
      cases r with
      | symbolic behind => exact ⟨_, behind, rfl, onRight⟩
      | number d =>
        obtain ⟨_, _, number⟩ := Value.combine_numbers_eq_ok.1 combined
        cases number

/-- A number times a tree that evaluates to text evaluates to text, if the number has not vanished. -/
theorem exists_symbolic_scaled (value : e.evalWithin settings levels scope = .ok (.symbolic text))
    (remains : (leadingFactor c e).isZero = false) :
    ∃ text', (scaled c e).evalWithin settings (levels + 1) scope = .ok (.symbolic text') := by
  fun_induction scaled c e generalizing levels text with
  | case1 c e vanishes =>
    rcases (Bool.or_eq_true_iff).1 vanishes with zero | zero
    · rw [isZero_leadingFactor zero] at remains
      cases remains
    · rw [isNumber_of_evaluates_symbolic value] at zero
      cases zero
  | case2 => exact ⟨text, evalWithin_of_le rfl (Nat.le_succ levels) value⟩
  | case3 c e _ _ isOne =>
    rw [isNumber_of_evaluates_symbolic value] at isOne
    cases isOne
  | case4 => cases number?_of_evaluates_symbolic value
  | case5 => cases number?_of_evaluates_symbolic value
  | case6 c other x rest product multiplied _ _ ih =>
    rw [leadingFactor, if_neg other] at remains
    simp only [multiplied] at remains
    -- The product leads what is behind the number, which has one level less.
    obtain ⟨levels, behind, rfl, inner⟩ := exists_symbolic_behind value
    obtain ⟨text', scaled⟩ := ih inner remains
    exact ⟨text', evalWithin_of_le rfl (Nat.le_succ _) scaled⟩
  | case7 => exact exists_symbolic_product value _
  | case8 => exact exists_symbolic_product value _

/-- A tree that evaluates to text is divided by a number as it stands, or the divisor is dropped. -/
theorem number_dividedBy (value : e.evalWithin settings levels scope = .ok (.symbolic text))
    (c : Decimal) : dividedBy e (.number c) = e ∨
      dividedBy e (.number c) = .binary .divide e (.number c) := by
  rw [dividedBy, isNumber_of_evaluates_symbolic value, if_neg Bool.false_ne_true,
    number?_of_evaluates_symbolic value]
  split
  · exact .inl rfl
  · exact .inr rfl

/-- A tree that evaluates to text, divided by a number, evaluates to text, whatever the number. -/
theorem exists_symbolic_dividedBy (value : e.evalWithin settings levels scope = .ok (.symbolic text))
    (c : Decimal) : ∃ text', (dividedBy e (.number c)).evalWithin settings (levels + 1) scope =
      .ok (.symbolic text') := by
  rcases number_dividedBy value c with same | quotient
  · rw [same]
    exact ⟨text, evalWithin_of_le rfl (Nat.le_succ levels) value⟩
  · rw [quotient]
    cases levels with
    | zero => cases value
    | succ levels =>
      rw [evalWithin_binary, value]
      exact ⟨_, Value.combine_symbolic_left .divide text (.number c)⟩

end

/-! ## The rules for quotients and products -/

namespace Setting

variable {s : Setting} {e d f : Expr} {n r : Decimal} {w : Value}

/-- Adding to zero gives the other tree. -/
theorem zero_plus (e : Expr) : plus zero e = e := by
  have isZero : Decimal.zero.isZero = true := rfl
  cases e <;> simp only [plus, zero, number?, isZero, if_true]

/-- A tree with a value is folded. -/
theorem exists_fold (value : e.eval s.settings s.scope = .ok w) : ∃ f, s.fold e = .ok f := by
  rw [fold, value]
  dsimp only
  split <;> exact ⟨_, rfl⟩

/-- A tree whose rounded value is a number is folded to it. -/
theorem fold_of_rounded (value : e.eval s.settings s.scope = .ok w)
    (rounded : w.rounded s.settings.precision = .number r) : s.fold e = .ok (.number r) := by
  rw [fold, value]
  dsimp only
  rw [rounded]

/-- A number is folded to what it is rounded to. -/
theorem fold_number (rounded : (Value.number n).rounded s.settings.precision = .number r) :
    s.fold (.number n) = .ok (.number r) :=
  fold_of_rounded (evalWithin_number_eq_ok.2 rfl) rounded

/-- A quotient by a number is the derivative divided by that number. -/
theorem derive_quotient (kept : s.fold e = .ok f) (number : s.fold (.number n) = .ok (.number r))
    (inner : s.derive false 1 e = .ok d) :
    s.derive false 0 (.binary .divide e (.number n)) = .ok (dividedBy d (.number r)) := by
  rw [derive, if_neg (Nat.not_lt_zero _)]
  simp only [kept, number, inner, mentions]
  rfl

/-- A product with a number in front is the number times the derivative. -/
theorem derive_product (kept : s.fold e = .ok f) (number : s.fold (.number n) = .ok (.number r))
    (inner : s.derive false 1 e = .ok d) :
    s.derive false 0 (.binary .multiply (.number n) e) = .ok (scaled r d) := by
  have room : ¬s.settings.maxDepth < 1 := by
    intro low
    unfold derive at inner
    rw [if_pos low] at inner
    cases inner
  have constant : s.derive false 1 (.number n) = .ok zero := by rw [derive, if_neg room]
  have dropped : plus (times zero f) (times (.number r) d) = scaled r d := by
    rw [isZeroNumber_zero.times_left, zero_plus]
    rfl
  rw [derive, if_neg (Nat.not_lt_zero _), ← dropped]
  simp only [kept, number, inner, constant]
  rfl

/-- Under a greater limit the derivative is found one level deeper. -/
theorem derive_deeper {limit : Nat} (deeper : s.settings.maxDepth < limit)
    (derived : s.derive false 0 e = .ok d) : (s.withMaxDepth limit).derive false 1 e = .ok d :=
  (cutsOff_derive (Nat.le_of_lt deeper) e false 0 1 deeper).eq_ok derived

end Setting

section

variable {settings : Settings} {scope : Scope} {v : String} {e d : Expr} {n r : Decimal} {w : Value}
  {limit : Nat}

/-- A derivative that evaluates to text is answered as text. -/
theorem exists_symbolic_of_derive {text : String}
    (derived : (⟨settings, scope.child, v⟩ : Setting).derive false 0 e = .ok d)
    (value : d.eval settings scope.child = .ok (.symbolic text)) :
    e.differentiate settings scope v = .ok (.symbolic d.annotate.render) := by
  rw [differentiate]
  dsimp only
  rw [derived]
  change (d.eval settings scope.child >>= _) = _
  rw [value]
  rfl

/-- Under a greater limit a tree with text as its derivative is kept as a factor, and its derivative
is found one level deeper and evaluates to text with a level left. -/
theorem exists_kept_and_derived {text : String} (deeper : settings.maxDepth < limit)
    (symbolic : e.differentiate settings scope v = .ok (.symbolic text))
    (evaluates : e.eval settings scope.child = .ok w) :
    ∃ f d shown, (⟨settings.withMaxDepth limit, scope.child, v⟩ : Setting).fold e = .ok f ∧
      (⟨settings, scope.child, v⟩ : Setting).derive false 0 e = .ok d ∧
      (⟨settings.withMaxDepth limit, scope.child, v⟩ : Setting).derive false 1 e = .ok d ∧
      d.evalWithin (settings.withMaxDepth limit) limit scope.child = .ok (.symbolic shown) := by
  obtain ⟨d, shown, derived, value, -⟩ := differentiate_eq_symbolic symbolic
  have again := (cutsOff_eval (Nat.le_of_lt deeper) scope.child e).eq_ok evaluates
  obtain ⟨f, kept⟩ := Setting.exists_fold
    (s := (⟨settings, scope.child, v⟩ : Setting).withMaxDepth limit) again
  exact ⟨f, d, shown, kept, derived, Setting.derive_deeper deeper derived,
    (cutsOff_evalWithin settings limit deeper scope.child d).eq_ok value⟩

/-- Divided by a number, a tree with text as its derivative has text as its derivative, under every
greater limit. -/
theorem exists_symbolic_quotient {text : String} (deeper : settings.maxDepth < limit)
    (symbolic : e.differentiate settings scope v = .ok (.symbolic text))
    (evaluates : e.eval settings scope.child = .ok w)
    (rounded : (Value.number n).rounded settings.precision = .number r) :
    ∃ text', (binary .divide e (.number n)).differentiate (settings.withMaxDepth limit) scope v =
      .ok (.symbolic text') := by
  obtain ⟨f, d, shown, kept, -, inner, value⟩ :=
    exists_kept_and_derived deeper symbolic evaluates
  obtain ⟨text', result⟩ := exists_symbolic_dividedBy value r
  exact ⟨_, exists_symbolic_of_derive
    (Setting.derive_quotient kept (Setting.fold_number rounded) inner) result⟩

/-- So has its product with a number that does not vanish. -/
theorem exists_symbolic_multiple {text : String} (deeper : settings.maxDepth < limit)
    (symbolic : e.differentiate settings scope v = .ok (.symbolic text))
    (evaluates : e.eval settings scope.child = .ok w)
    (rounded : (Value.number n).rounded settings.precision = .number r)
    (derived : (⟨settings, scope.child, v⟩ : Setting).derive false 0 e = .ok d)
    (remains : (leadingFactor r d).isZero = false) :
    ∃ text', (binary .multiply (.number n) e).differentiate (settings.withMaxDepth limit) scope v =
      .ok (.symbolic text') := by
  obtain ⟨f, d', shown, kept, derived', inner, value⟩ :=
    exists_kept_and_derived deeper symbolic evaluates
  obtain rfl := Except.ok.inj (derived.symm.trans derived')
  obtain ⟨text', result⟩ := exists_symbolic_scaled value remains
  exact ⟨_, exists_symbolic_of_derive
    (Setting.derive_product kept (Setting.fold_number rounded) inner) result⟩

end

end Expr

/-! ## Sessions -/

namespace Session

variable {s s' : Session} {text v : String}

/-- The derivative of the text is text. -/
def GivesText (s : Session) (text v : String) : Prop :=
  ∃ result, (s.differentiate text v).1 = .ok (.symbolic result)

/-- Under every greater limit on nesting the derivative of the text is text, and under the limit in
force too, unless that limit stops it. -/
def GivesTextUnlessStopped (s : Session) (text v : String) : Prop :=
  (∀ s', s.RaisesLimit s' → s.settings.maxDepth < s'.settings.maxDepth → s'.GivesText text v) ∧
    (Unstopped (s.differentiate text v).1 → s.GivesText text v)

/-- A faithful session parses a text and differentiates the tree. -/
theorem Faithful.differentiate_eq (faithful : s.Faithful) (text v : String) :
    (s.differentiate text v).1 = Expr.parse s.settings.maxDepth text >>= fun e =>
      e.differentiate s.settings s.scope v := by
  rw [differentiate, (faithful.withTree (fun _ _ => rfl) text).1, Storeless.withTree_eq]
  rfl

/-- A text that differentiates to text under every greater limit does so under the limit in force,
unless that stops it. -/
theorem givesTextUnlessStopped (faithful : s.Faithful)
    (above : ∀ s', s.RaisesLimit s' → s.settings.maxDepth < s'.settings.maxDepth →
      s'.GivesText text v) : s.GivesTextUnlessStopped text v := by
  refine ⟨above, fun unstopped => ?_⟩
  let next := (s.storeless.withMaxDepth (s.settings.maxDepth + 1)).session
  have le : s.settings.maxDepth ≤ next.settings.maxDepth := Nat.le_succ _
  have raised : s.RaisesLimit next := ⟨le, rfl, rfl, faithful, Storeless.faithful_session _⟩
  obtain ⟨result, given⟩ := above next raised (Nat.lt_succ_self _)
  have same := (Expr.cutsOff_parse le text).bind (Expr.cutsOff_differentiate le s.scope v)
  rw [faithful.differentiate_eq] at unstopped
  rw [(Storeless.faithful_session _).differentiate_eq] at given
  refine ⟨result, ?_⟩
  rw [faithful.differentiate_eq, ← cutsOff_eq_iff.1 same unstopped]
  exact given

/-- Where the text is read as a tree whose derivative is text, so is the derivative of the text. -/
theorem RaisesLimit.givesText {e : Expr} {result : String} (raised : s.RaisesLimit s')
    (read : Expr.parse s'.settings.maxDepth text = .ok e)
    (symbolic : e.differentiate (s.settings.withMaxDepth s'.settings.maxDepth) s.scope v =
      .ok (.symbolic result)) : s'.GivesText text v := by
  refine ⟨result, ?_⟩
  rw [raised.faithful'.differentiate_eq, read, raised.settings, raised.scope]
  exact symbolic

end Session

/-- Constant factors pass through differentiation. In a session of any history, for every text that
differentiates to text and that evaluates without a fault when its variables are left free, and for
every literal: the text divided by the literal differentiates to text, and so does its product with
the literal in front unless the literal, rounded to the precision in force and multiplied into the
numbers that lead the derivative, vanishes. Both do so under every greater limit on nesting, and
under the limit in force as well if that does not stop them. -/
theorem constant_factors_pass {s : Session} (faithful : s.Faithful) {u v c : String}
    {tree d : Expr} {n r : Decimal} {w : Value}
    (read : Expr.parse s.settings.maxDepth u = .ok tree)
    (literal : Expr.parse s.settings.maxDepth c = .ok (.number n)) (symbolic : s.GivesText u v)
    (evaluates : tree.eval s.settings s.scope.child = .ok w)
    (rounded : (Value.number n).rounded s.settings.precision = .number r)
    (derived : (⟨s.settings, s.scope.child, v⟩ : Expr.Setting).derive false 0 tree = .ok d) :
    s.GivesTextUnlessStopped ("(" ++ u ++ ") / " ++ c) v ∧
      ((Expr.leadingFactor r d).isZero = false →
        s.GivesTextUnlessStopped (c ++ " * (" ++ u ++ ")") v) := by
  obtain ⟨result, symbolic⟩ := symbolic
  rw [faithful.differentiate_eq, read] at symbolic
  constructor
  · refine Session.givesTextUnlessStopped faithful fun s' raised deeper => ?_
    have quotient := Grammar.parse_parenthesized_number .divide read literal
    have spaced : "(" ++ u ++ ") " ++ Operator.divide.symbol ++ " " ++ c =
        "(" ++ u ++ ") / " ++ c := by
      simp only [String.append_assoc]
      rfl
    rw [spaced] at quotient
    obtain ⟨result', given⟩ := Expr.exists_symbolic_quotient deeper symbolic evaluates rounded
    exact raised.givesText (Grammar.parse_eq_ok_of_le quotient deeper) given
  · intro remains
    refine Session.givesTextUnlessStopped faithful fun s' raised deeper => ?_
    have noAssign : Operator.multiply ≠ .assign := nofun
    have product := Grammar.parse_number_parenthesized noAssign read literal
    have spaced : c ++ " " ++ Operator.multiply.symbol ++ " (" ++ u ++ ")" =
        c ++ " * (" ++ u ++ ")" := by
      simp only [String.append_assoc]
      rfl
    rw [spaced] at product
    obtain ⟨result', given⟩ :=
      Expr.exists_symbolic_multiple deeper symbolic evaluates rounded derived remains
    exact raised.givesText (Grammar.parse_eq_ok_of_le product deeper) given

/-- A quarter of three squares, in a new session. -/
theorem constant_factors_pass_quarter :
    let s := Session.new {}
    let quarter : Decimal := ⟨false, 25, 2, by decide, by decide⟩
    let d : Expr := .binary .multiply (.number ⟨false, 6, 0, by decide, by decide⟩) (.plain "x")
    (∃ tree, Expr.parse s.settings.maxDepth "3 * x^2" = .ok tree ∧
        (∃ w, tree.eval s.settings s.scope.child = .ok w) ∧
        (⟨s.settings, s.scope.child, "x"⟩ : Expr.Setting).derive false 0 tree = .ok d) ∧
      Expr.parse s.settings.maxDepth "0.25" = .ok (.number quarter) ∧ s.GivesText "3 * x^2" "x" ∧
      (Value.number quarter).rounded s.settings.precision = .number quarter ∧
      (Expr.leadingFactor quarter d).isZero = false ∧
      s.GivesTextUnlessStopped "(3 * x^2) / 0.25" "x" ∧
      s.GivesTextUnlessStopped "0.25 * (3 * x^2)" "x" := by
  intro s quarter d
  let tree : Expr := .binary .multiply (.number .three) (.binary .power (.plain "x") (.number .two))
  have read : Expr.parse s.settings.maxDepth "3 * x^2" = .ok tree := by decide +kernel
  have literal : Expr.parse s.settings.maxDepth "0.25" = .ok (.number quarter) := by decide +kernel
  have symbolic : s.GivesText "3 * x^2" "x" := ⟨"6x", by decide +kernel⟩
  have evaluates : tree.eval s.settings s.scope.child = .ok (.symbolic "(3 * (x ^ 2))") := by
    decide +kernel
  have rounded : (Value.number quarter).rounded s.settings.precision = .number quarter := by decide
  have derived : (⟨s.settings, s.scope.child, "x"⟩ : Expr.Setting).derive false 0 tree = .ok d := by
    decide +kernel
  have remains : (Expr.leadingFactor quarter d).isZero = false := by decide
  obtain ⟨quotient, product⟩ := constant_factors_pass (Session.faithful_new {}) read literal symbolic
    evaluates rounded derived
  exact ⟨⟨tree, read, ⟨_, evaluates⟩, derived⟩, literal, symbolic, rounded, remains, quotient,
    product remains⟩

/-- Each condition is needed. A sum may have a derivative while one of its terms has no value, and
then there is none for a multiple or a fraction of it. A tree may have just as many levels as the
limit allows. And a factor that is not small in itself may vanish in front of a derivative that
begins with a small number. -/
theorem constant_factors_may_not_pass :
    let s := Session.new {}
    let shallow := Session.new { maxDepth := 2 }
    let tiny := "0.000001 * (0.000001 * (0.000001 * (0.000001 * x^2)))"
    (s.GivesText "x^2 + 1 / 0" "x" ∧
      (s.differentiate "2 * (x^2 + 1 / 0)" "x").1 = .error (.arithmetic .divisionByZero) ∧
      (s.differentiate "(x^2 + 1 / 0) / 2" "x").1 = .error (.arithmetic .divisionByZero)) ∧
    (shallow.GivesText "x^2" "x" ∧
      (shallow.differentiate "2 * (x^2)" "x").1 = .error (.depthExceeded 2) ∧
      (shallow.differentiate "(x^2) / 2" "x").1 = .error (.depthExceeded 2)) ∧
    s.GivesText tiny "x" ∧
      (s.differentiate ("0.000001 * (" ++ tiny ++ ")") "x").1 = .ok (.number .zero) := by
  intro s shallow tiny
  refine ⟨⟨⟨"2x", by decide +kernel⟩, by decide +kernel, by decide +kernel⟩,
    ⟨⟨"2x", by decide +kernel⟩, by decide +kernel, by decide +kernel⟩,
    ⟨"0.000000000000000000000002x", by decide +kernel⟩, by decide +kernel⟩

end Reckon
