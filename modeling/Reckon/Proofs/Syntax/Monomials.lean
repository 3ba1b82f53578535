import Reckon.Proofs.Syntax.RoundTrip

/-!
# Reading trees with monomials

A variable with a monomial is written as in `2x^3`, and read as a product: a `*` is understood
between the coefficient and the name. So the text of such a tree is not always read as one operand,
and what stands in front of it may go with the coefficient. The trees for which this does no harm
are described here, with the trees that are read instead.
-/

namespace Reckon

namespace Grammar

open Token (Kind Spells EndsNumber isIdentifier)

variable {depth level : Nat} {text left : String} {c p e l : Expr} {called : Bool}

/-! ## Factors with a `*` understood between them -/

/-- The text is read as a number with its sign and a power, whatever stands in front of it. -/
def WritesFactors (depth : Nat) (text : String) (c p : Expr) : Prop :=
  ∀ ⦃cs : List Char⦄ ⦃ks : List Kind⦄, Tail cs ks → ∃ front mid,
    Spells (text.toList ++ cs) front ∧ Phrase depth 5 front c (.operator .multiply :: mid) ∧
      Phrase depth 4 mid p ks

/-- The text is read as a power of a name. -/
def WritesPower (depth : Nat) (text : String) (p : Expr) : Prop :=
  ∀ ⦃cs : List Char⦄ ⦃ks : List Kind⦄, Tail cs ks → EndsNumber (text.toList ++ cs) ∧
    ∃ name rest, Spells (text.toList ++ cs) (.name name :: rest) ∧
      Phrase depth 4 (.name name :: rest) p ks

/-- What no call ends may also be said to end with a call. -/
theorem Writes.anyway (h : Writes depth level text e false) : Writes depth level text e called :=
  fun _ _ tail _ => h tail nofun

/-- What is written as factors at one depth is so at every greater one. -/
theorem WritesFactors.mono {deeper : Nat} (h : WritesFactors depth text c p)
    (le : depth ≤ deeper) : WritesFactors deeper text c p := by
  intro cs ks tail
  obtain ⟨front, mid, spells, first, second⟩ := h tail
  exact ⟨front, mid, spells, first.mono le, second.mono le⟩

/-- What is written as a power at one depth is so at every greater one. -/
theorem WritesPower.mono {deeper : Nat} (h : WritesPower depth text p) (le : depth ≤ deeper) :
    WritesPower deeper text p := by
  intro cs ks tail
  obtain ⟨ends, name, rest, spells, phrase⟩ := h tail
  exact ⟨ends, name, rest, spells, phrase.mono le⟩

/-- By themselves, the factors are a product. -/
theorem WritesFactors.writes (h : WritesFactors depth text c p) :
    Writes depth 3 text (.binary .multiply c p) false := by
  intro cs ks tail _
  obtain ⟨front, mid, spells, first, second⟩ := h tail
  exact ⟨front, spells, .joined rfl (first.loosen (by decide) (Nat.le_refl 5)) second⟩

/-- A minus sign goes with the number. -/
theorem WritesFactors.minus (h : WritesFactors depth text c p) :
    WritesFactors (depth + 1) ("-" ++ text) (.signed .negative c) p := by
  intro cs ks tail
  obtain ⟨front, mid, spells, first, second⟩ := h tail
  rw [String.toList_append, List.append_assoc]
  exact ⟨_, mid, spells.minus, @Phrase.signed depth front _ .negative c first,
    second.mono (Nat.le_succ depth)⟩

/-- Behind a `*`, the product in front takes the number first. -/
theorem WritesFactors.behindTimes (h : WritesFactors depth text c p)
    (before : Writes depth 3 left l called) :
    Writes depth 3 (left ++ " * " ++ text) (.binary .multiply (.binary .multiply l c) p) false := by
  intro cs ks tail _
  obtain ⟨mid, behind, spells, first, second⟩ := h tail
  obtain ⟨front, spells, whole⟩ := before (.spaced .multiply spells) nofun
  rw [String.toList_append, String.toList_append, List.append_assoc, List.append_assoc]
  exact ⟨front, spells, .joined rfl (.joined rfl whole (first.loosen (by decide) (Nat.le_refl 5)))
    second⟩

/-- A name ends the number in front of it. -/
theorem endsNumber_name {name : String} (valid : isIdentifier name = true) (cs : List Char) :
    EndsNumber (name.toList ++ cs) := by
  unfold isIdentifier at valid
  split at valid
  · cases valid
  · next c tail same =>
    rw [Bool.and_eq_true] at valid
    rw [same]
    intro first isFirst
    obtain rfl : c = first := Option.some.inj isFirst
    refine ⟨Token.isDigit_eq_false_of_isLetter valid.1, ?_⟩
    rintro rfl
    exact absurd valid.1 (by decide)

/-- A name is written as a power of itself. -/
theorem writesPower_name (depth : Nat) {name : String} (valid : isIdentifier name = true) :
    WritesPower depth name (.plain name) := by
  intro cs ks tail
  have phrase : Phrase depth 5 (.name name :: ks) (.plain name) ks :=
    .name tail.head?_ne_leftParen
  exact ⟨endsNumber_name valid cs, name, ks, .name valid tail.separate tail.spells,
    phrase.loosen (by decide) (Nat.le_refl 5)⟩

/-- A name to the power of an operand. -/
theorem Writes.power {name : String} (valid : isIdentifier name = true)
    (h : Writes depth 5 text e false) :
    WritesPower depth (name ++ ("^" ++ text)) (.binary .power (.plain name) e) := by
  intro cs ks tail
  obtain ⟨front, spells, phrase⟩ := h tail nofun
  have behind := Tail.caret spells
  have base : Phrase depth 5 (.name name :: .operator .power :: front) (.plain name)
      (.operator .power :: front) := .name nofun
  rw [String.toList_append, String.toList_append, List.append_assoc, List.append_assoc]
  exact ⟨endsNumber_name valid _, name, _, .name valid behind.separate behind.spells,
    .joined rfl (base.loosen (by decide) (Nat.le_refl 5)) phrase⟩

/-- A power is written as a phrase of the level of powers. -/
theorem WritesPower.writes (h : WritesPower depth text p) : Writes depth 4 text p false := by
  intro cs ks tail _
  obtain ⟨_, name, rest, spells, phrase⟩ := h tail
  exact ⟨_, spells, phrase⟩

/-- A number right in front of a power is its factor. -/
theorem WritesPower.scaled (h : WritesPower depth text p) {d : Decimal}
    (positive : d.negative = false) : WritesFactors depth (d.text ++ text) (.number d) p := by
  intro cs ks tail
  obtain ⟨ends, name, rest, spells, phrase⟩ := h tail
  rw [String.toList_append, List.append_assoc]
  exact ⟨_, _, spells.scaled positive ends, .number, phrase⟩

end Grammar

open Token (isIdentifier)

/-! ## What is read -/

namespace Expr

/-- How a text is read: as one phrase of a level, or as a number with its sign and a power with a
`*` understood between them. -/
inductive Form where
  | phrase (level : Nat) (e : Expr)
  | factors (coefficient power : Expr)

namespace Form

/-- The tree that is read where nothing stands in front of the text. -/
def tree : Form → Expr
  | phrase _ e => e
  | factors c p => .binary .multiply c p

/-- The level of the grammar on which the text is read. -/
def level : Form → Nat
  | phrase level _ => level
  | factors _ _ => 3

/-- Whether the text is read as two factors. -/
def isFactors : Form → Bool
  | phrase _ _ => false
  | factors _ _ => true

/-- Whether a minus sign in front of the text negates what is read. -/
def takesSign : Form → Bool
  | phrase level _ => level == 5
  | factors _ _ => true

/-- The text behind a minus sign. -/
def negated : Form → Form
  | phrase _ e => phrase 5 (.signed .negative e)
  | factors c p => factors (.signed .negative c) p

/-- What is read behind a tree and a `*`. -/
def behindTimes (left : Expr) : Form → Expr
  | phrase _ e => .binary .multiply left e
  | factors c p => .binary .multiply (.binary .multiply left c) p

end Form

/-- The tree that is read from a name with an exponent, given in normal form. -/
def powerOf (name : String) (exponent : Decimal) : Expr :=
  if exponent.same .one then .plain name
  else if exponent.negative then
    .binary .power (.plain name) (.signed .negative (.number exponent.neg))
  else .binary .power (.plain name) (.number exponent)

end Expr

/-- How a monomial in a name is read. -/
def Monomial.form (term : Monomial) (name : String) : Expr.Form :=
  if term.exponent.normalize.isZero then .phrase 5 (Expr.signedNumber term.coefficient)
  else if term.coefficient.same .one then
    .phrase (if term.exponent.normalize.same .one then 5 else 4)
      (Expr.powerOf name term.exponent.normalize)
  else if term.coefficient.same .negOne && term.exponent.normalize.same .one then
    .phrase 5 (.signed .negative (.plain name))
  else .factors (Expr.signedNumber term.coefficient) (Expr.powerOf name term.exponent.normalize)

namespace Expr

/-- What is read from two operands with an operator between them, the right one bare or in
parentheses. -/
def joined (op : Operator) (left : Expr) (bare : Bool) (right : Form) : Expr :=
  if op = .multiply && bare then right.behindTimes left else .binary op left right.tree

mutual

/-- How the text of a tree is read. -/
def form : Expr → Form
  | .number value => .phrase 5 (signedNumber value)
  | .variable name none => .phrase 5 (.plain name)
  | .variable name (some term) => term.form name
  | .signed .positive operand =>
    if operand.needsParensBelowSign then .phrase 5 operand.form.tree else operand.form
  | .signed .negative operand =>
    if operand.needsParensBelowSign then .phrase 5 (.signed .negative operand.form.tree)
    else operand.form.negated
  | .binary op left right =>
    .phrase op.precedence
      (joined op left.form.tree (!right.needsParens op true) right.form)
  | .call name args => .phrase 5 (.call name (formTrees args))
  | .vector items => .phrase 5 (.vector items)
  | .matrix columns => .phrase 5 (.matrix columns)
  | .definition name params body => .phrase 5 (.definition name params body)

/-- The trees that are read from the texts of some trees. -/
def formTrees : List Expr → List Expr
  | [] => []
  | e :: es => e.form.tree :: formTrees es

end

/-- Whether an operand is read as one on its side of the operator. Behind a `*` the factors of a
monomial are taken one after the other. -/
def fits (e : Expr) (op : Operator) (right : Bool) : Bool :=
  e.needsParens op right || decide (op.precedence + right.toNat ≤ e.form.level) ||
    (right && op == .multiply && e.form.isFactors)

/-- Whether a sign stands in front of the tree. -/
def isSigned : Expr → Bool
  | .signed _ _ => true
  | _ => false

mutual

/-- Whether the text of a tree is read as it is meant: no minus sign in front of a power that is
written without parentheses, no sign in front of what is no operand in its place, such as a product
as a divisor, and no call right in front of a single equals sign. -/
def readsBack : Expr → Bool
  | .signed sign operand =>
    operand.readsBack &&
      (sign == .positive || operand.needsParensBelowSign || operand.form.takesSign)
  | .binary op left right =>
    left.readsBack && right.readsBack && (!left.isSigned || left.fits op false) &&
      (!right.isSigned || right.fits op true) &&
      !(op == .assign && !left.needsParens op false && left.endsWithCall)
  | .call _ args => readsBackAll args
  | _ => true

/-- Whether the texts of some trees are read as they are meant. -/
def readsBackAll : List Expr → Bool
  | [] => true
  | e :: es => e.readsBack && readsBackAll es

end

mutual

/-- Whether a tree is a scalar and has names that can be read, monomials allowed. -/
def isWritable : Expr → Bool
  | .number _ => true
  | .variable name _ => isIdentifier name
  | .signed _ operand => operand.isWritable
  | .binary _ left right => left.isWritable && right.isWritable
  | .call name args => isIdentifier name && areWritable args
  | .vector _ => false
  | .matrix _ => false
  | .definition _ _ _ => false

/-- Whether some trees are scalars and have names that can be read. -/
def areWritable : List Expr → Bool
  | [] => true
  | e :: es => e.isWritable && areWritable es

end

/-! ## Monomials -/

open Grammar (Writes WritesWhole WritesArguments WritesFactors WritesPower)

/-- A name with its exponent. -/
theorem writesPower_powerOf {name : String} (valid : isIdentifier name = true)
    (exponent : Decimal) :
    WritesPower 2 (name ++ Monomial.exponentText exponent) (powerOf name exponent) := by
  rw [Monomial.exponentText, powerOf]
  cases one : exponent.same .one with
  | true =>
    rw [if_pos rfl, if_pos rfl, String.append_empty]
    exact Grammar.writesPower_name 2 valid
  | false =>
    rw [if_neg Bool.false_ne_true, if_neg Bool.false_ne_true]
    cases sign : exponent.negative with
    | true =>
      have positive : exponent.neg.negative = false := by rw [Decimal.neg, sign]; rfl
      have written : Writes 2 5 ("(" ++ exponent.text ++ ")")
          (.signed .negative (.number exponent.neg)) false := by
        rw [Decimal.text_of_negative sign]
        exact ((Grammar.writes_number 0 positive).minus.whole (by decide)
          (Nat.le_refl 5)).parenthesized
      have text : "^(" ++ exponent.text ++ ")" = "^" ++ ("(" ++ exponent.text ++ ")") := by
        rw [← String.append_assoc, ← String.append_assoc]
        rfl
      rw [if_pos rfl, if_pos rfl, text]
      exact written.power valid
    | false =>
      rw [if_neg Bool.false_ne_true, if_neg Bool.false_ne_true]
      exact (Grammar.writes_number 2 sign).power valid

/-- The text is read in this way, wherever it stands. -/
def Form.IsWritten (depth : Nat) (text : String) (called : Bool) : Form → Prop
  | phrase level e => 1 ≤ level ∧ level ≤ 5 ∧ Writes depth level text e called
  | factors c p => WritesFactors depth text c p

/-- What is written as an operand has the form of an operand. -/
theorem isWritten_operand {depth : Nat} {text : String} {called : Bool} {e : Expr}
    (h : Writes depth 5 text e called) : (Form.phrase 5 e).IsWritten depth text called :=
  ⟨by decide, Nat.le_refl 5, h⟩

/-- A number with its sign in front of a power. -/
theorem writesFactors_scaled {depth : Nat} {text : String} {p : Expr} (d : Decimal)
    (h : WritesPower depth text p) :
    WritesFactors (depth + 1) (d.render ++ text) (signedNumber d) p := by
  rw [Decimal.render, signedNumber]
  cases sign : d.normalize.negative with
  | false =>
    rw [if_neg Bool.false_ne_true]
    exact (h.mono (Nat.le_succ depth)).scaled sign
  | true =>
    have positive : d.normalize.neg.negative = false := by rw [Decimal.neg, sign]; rfl
    rw [if_pos rfl, Decimal.text_of_negative sign, String.append_assoc]
    exact (h.scaled positive).minus

/-- A monomial is written in its form. -/
theorem isWritten_monomial {name : String} (valid : isIdentifier name = true) (term : Monomial)
    {depth : Nat} (deep : 3 ≤ depth) :
    (term.form name).IsWritten depth (term.render name) false := by
  have power := writesPower_powerOf valid term.exponent.normalize
  rw [Monomial.form, Monomial.render]
  cases term.exponent.normalize.isZero with
  | true =>
    rw [if_pos rfl, if_pos rfl]
    exact isWritten_operand ((writes_signedNumber _).mono (by omega))
  | false =>
    rw [if_neg Bool.false_ne_true, if_neg Bool.false_ne_true, Monomial.coefficientText]
    cases unit : term.coefficient.same .one with
    | true =>
      rw [if_pos rfl, if_pos rfl, String.empty_append]
      cases plain : term.exponent.normalize.same .one with
      | true =>
        rw [if_pos rfl, Monomial.exponentText, powerOf, if_pos plain, if_pos plain,
          String.append_empty]
        exact isWritten_operand (Grammar.writes_name depth valid)
      | false =>
        rw [if_neg Bool.false_ne_true]
        exact ⟨by decide, by decide, power.writes.mono (by omega)⟩
    | false =>
      rw [if_neg Bool.false_ne_true, if_neg Bool.false_ne_true]
      cases lone : term.coefficient.same .negOne && term.exponent.normalize.same .one with
      | true =>
        rw [Bool.and_eq_true] at lone
        rw [if_pos rfl, if_pos rfl, Monomial.exponentText, if_pos lone.2, String.append_empty]
        exact isWritten_operand ((Grammar.writes_name 0 valid).minus.mono (by omega))
      | false =>
        rw [if_neg Bool.false_ne_true, if_neg Bool.false_ne_true, String.append_assoc]
        exact (writesFactors_scaled term.coefficient power).mono deep

/-! ## Operands -/

section

variable {depth : Nat} {text : String} {called : Bool} {f : Form}

/-- On its own level, the text is read as the tree of its form. -/
theorem Form.IsWritten.writes (h : f.IsWritten depth text called) :
    1 ≤ f.level ∧ f.level ≤ 5 ∧ Writes depth f.level text f.tree called := by
  cases f with
  | phrase level e => exact h
  | factors c p => exact ⟨Nat.le_add_left 1 2, Nat.le_add_right 3 2, (WritesFactors.writes h).anyway⟩

/-- A text in any form is read as the tree of the form where nothing stands in front of it. -/
theorem Form.IsWritten.whole (h : f.IsWritten depth text called) :
    WritesWhole (depth + 1) text f.tree :=
  h.writes.2.2.whole h.writes.1 h.writes.2.1

/-- A minus sign goes with a text that takes it. -/
theorem Form.IsWritten.negated (h : f.IsWritten depth text called) (takes : f.takesSign = true) :
    f.negated.IsWritten (depth + 1) ("-" ++ text) called := by
  cases f with
  | phrase level e =>
    obtain rfl : level = 5 := beq_iff_eq.1 takes
    exact isWritten_operand h.2.2.minus
  | factors c p => exact WritesFactors.minus h

/-- An operand is read on the side of its operator, in parentheses or where it fits. -/
theorem Form.IsWritten.operand {e : Expr} (h : e.form.IsWritten depth text called)
    {op : Operator} {right : Bool}
    (fits : e.needsParens op right = true ∨ op.precedence + right.toNat ≤ e.form.level) :
    Writes (depth + 1) (op.precedence + right.toNat)
      (parenthesized (e.needsParens op right) text) e.form.tree
      (!e.needsParens op right && called) := by
  have bound : op.precedence + right.toNat ≤ 5 := by
    have small := op.precedence_bounds.2
    have one : right.toNat ≤ 1 := Bool.toNat_le right
    omega
  cases needed : e.needsParens op right with
  | true => exact h.whole.parenthesized.loosen bound (Nat.le_refl 5)
  | false =>
    have tight := fits.resolve_left (by rw [needed]; exact Bool.false_ne_true)
    exact (h.writes.2.2.loosen tight h.writes.2.1).mono (Nat.le_succ depth)

end

/-- The text of a tree is read in the form of the tree. -/
def IsReadBack (e : Expr) : Prop :=
  ∀ {depth : Nat}, 4 * e.height ≤ depth + 1 → e.form.IsWritten depth e.render e.endsWithCall

/-- Below a minus sign stands an operand in parentheses, or what takes the sign. -/
theorem isReadBack_signed {sign : Sign} {operand : Expr} (h : operand.IsReadBack)
    (fits : sign = .positive ∨ operand.needsParensBelowSign = true ∨
      operand.form.takesSign = true) :
    (Expr.signed sign operand).IsReadBack := by
  intro depth deep
  have positive := operand.height_pos
  rw [height] at deep
  obtain ⟨inner, rfl⟩ : ∃ inner, depth = inner + 4 := ⟨depth - 4, by omega⟩
  have below : operand.form.IsWritten (inner + 2) operand.render operand.endsWithCall :=
    h (by omega)
  have kept : operand.form.IsWritten (inner + 4) operand.render operand.endsWithCall :=
    h (by omega)
  rw [render, endsWithCall]
  cases needed : operand.needsParensBelowSign with
  | true =>
    have grouped := below.whole.parenthesized
    cases sign with
    | positive =>
      rw [form, if_pos needed, if_neg (by decide), String.empty_append]
      exact isWritten_operand (grouped.mono (Nat.le_succ _))
    | negative =>
      rw [form, if_pos needed, if_pos rfl]
      exact isWritten_operand grouped.minus
  | false =>
    have bare : ¬operand.needsParensBelowSign = true := by rw [needed]; exact Bool.false_ne_true
    cases sign with
    | positive =>
      rw [form, if_neg bare, if_neg (by decide), String.empty_append]
      exact kept
    | negative =>
      have takes : operand.form.takesSign = true :=
        (fits.resolve_left (by decide)).resolve_left bare
      have inside : operand.form.IsWritten (inner + 3) operand.render operand.endsWithCall :=
        h (by omega)
      rw [form, if_neg bare, if_pos rfl]
      exact inside.negated takes

/-- The factors of a monomial are taken behind a `*`, and they are in parentheses as a divisor. -/
theorem fits_factors {name : String} {term : Monomial} {op : Operator} {right : Bool} {c p : Expr}
    (scaled : ¬term.coefficient.same .one = true) (noPower : op ≠ .power) :
    ((Expr.variable name (some term)).needsParens op right = true ∨
      op.precedence + right.toNat ≤ (Form.factors c p).level) ∨
        (right && op == .multiply && (Form.factors c p).isFactors) = true := by
  rw [Form.level, Form.isFactors, needsParens, Bool.eq_false_iff.2 scaled]
  cases right with
  | false =>
    refine .inl (.inr ?_)
    cases op with
    | power => exact absurd rfl noPower
    | _ => decide
  | true =>
    cases op with
    | power => exact absurd rfl noPower
    | multiply => exact .inr rfl
    | divide => exact .inl (.inl rfl)
    | _ => exact .inl (.inr (by decide))

/-- Without a sign in front, an operand is in parentheses wherever it has to be. -/
theorem fits_of_isSigned_eq_false {e : Expr} (unsigned : e.isSigned = false) (op : Operator)
    (right : Bool) : e.fits op right = true := by
  have small := op.precedence_bounds.2
  have one : right.toNat ≤ 1 := Bool.toNat_le right
  rw [fits, Bool.or_eq_true, Bool.or_eq_true, decide_eq_true_eq]
  cases e with
  | signed sign operand => cases unsigned
  | definition name params body => exact .inl (.inl rfl)
  | binary own l r =>
    left
    rw [form, Form.level, needsParens, Bool.or_eq_true, decide_eq_true_eq]
    cases right with
    | false =>
      rw [Bool.toNat_false]
      omega
    | true =>
      rw [Bool.true_and, beq_iff_eq, Bool.toNat_true]
      omega
  | «variable» name term =>
    cases term with
    | none => exact .inl (.inr (show _ ≤ 5 by omega))
    | some term =>
      by_cases power : op = .power
      · exact .inl (.inl (by rw [power]; rfl))
      · have low : op.precedence ≤ 3 := by
          cases op with
          | power => exact absurd rfl power
          | _ => decide
        rw [form, Monomial.form]
        split
        · exact .inl (.inr (show _ ≤ 5 by omega))
        · split
          · refine .inl (.inr ?_)
            rw [Form.level]
            split <;> omega
          · next scaled =>
            split
            · exact .inl (.inr (show _ ≤ 5 by omega))
            · exact fits_factors scaled power
  | _ => exact .inl (.inr (show _ ≤ 5 by omega))

/-- What fits if it has a sign fits anyway, since without a sign every operand fits. -/
theorem fits_of_sign {e : Expr} {op : Operator} {right : Bool}
    (h : (!e.isSigned || e.fits op right) = true) : e.fits op right = true := by
  cases signed : e.isSigned with
  | false => exact fits_of_isSigned_eq_false signed op right
  | true =>
    rw [signed] at h
    exact h

/-- A star stands between spaces. -/
theorem infixText_multiply : infixText .multiply = " * " := by decide

/-- An operand that is read as one stands right of its operator. -/
theorem joined_of_fits {op : Operator} {left right : Expr}
    (fits : right.needsParens op true = true ∨ op.precedence + true.toNat ≤ right.form.level) :
    joined op left (!right.needsParens op true) right.form = .binary op left right.form.tree := by
  rw [joined]
  split
  · next times =>
    rw [Bool.and_eq_true, decide_eq_true_eq, Bool.not_eq_true'] at times
    obtain ⟨rfl, bare⟩ := times
    have tight := fits.resolve_left (by rw [bare]; exact Bool.false_ne_true)
    cases same : right.form with
    | phrase level e => rfl
    | factors c p =>
      rw [same] at tight
      exact absurd tight (Nat.not_succ_le_self 3)
  · rfl

/-- Both operands fit, and in front of a single equals sign stands no call. -/
theorem isReadBack_binary {op : Operator} {left right : Expr} (onLeft : left.IsReadBack)
    (onRight : right.IsReadBack) (fitsLeft : left.fits op false = true)
    (fitsRight : right.fits op true = true)
    (noCall : (op == .assign && !left.needsParens op false && left.endsWithCall) = false) :
    (Expr.binary op left right).IsReadBack := by
  intro depth deep
  have positive := left.height_pos
  rw [height] at deep
  obtain ⟨inner, rfl⟩ : ∃ inner, depth = inner + 1 := ⟨depth - 1, by omega⟩
  have first : left.form.IsWritten inner left.render left.endsWithCall := onLeft (by omega)
  have second : right.form.IsWritten inner right.render right.endsWithCall := onRight (by omega)
  have small := op.precedence_bounds
  rw [fits, Bool.or_eq_true, Bool.or_eq_true, decide_eq_true_eq] at fitsLeft fitsRight
  have before := first.operand (fitsLeft.resolve_right nofun)
  rw [Bool.toNat_false, Nat.add_zero] at before
  rw [form, render, endsWithCall]
  refine ⟨small.1, Nat.le_succ_of_le small.2, ?_⟩
  by_cases fits : right.needsParens op true = true ∨ op.precedence + true.toNat ≤ right.form.level
  · rw [joined_of_fits fits]
    refine .joined rfl (tail_infixText op) (fun assign => ?_) before (second.operand fits)
    rw [assign] at noCall ⊢
    rw [beq_self_eq_true, Bool.true_and] at noCall
    exact noCall
  · have times := fitsRight.resolve_left fits
    rw [Bool.true_and, Bool.and_eq_true, beq_iff_eq] at times
    obtain ⟨rfl, isFactors⟩ := times
    have bare : right.needsParens .multiply true = false :=
      Bool.eq_false_iff.2 fun needed => fits (.inl needed)
    cases same : right.form with
    | phrase level e =>
      rw [same] at isFactors
      cases isFactors
    | factors c p =>
      rw [same] at second
      rw [joined, bare, if_pos (by decide), infixText_multiply]
      exact ((WritesFactors.mono second (Nat.le_succ inner)).behindTimes before).anyway

mutual

/-- The text of a writable tree is read in the form of the tree, if it is read as it is meant. -/
theorem isReadBack_of_readsBack : ∀ {e : Expr}, e.isWritable = true → e.readsBack = true →
    e.IsReadBack
  | .number value, _, _ => fun deep =>
    isWritten_operand ((writes_signedNumber value).mono (by rw [height] at deep; omega))
  | .variable name none, valid, _ => fun _ => isWritten_operand (Grammar.writes_name _ valid)
  | .variable name (some term), valid, _ => fun deep =>
    isWritten_monomial valid term (by rw [height] at deep; omega)
  | .signed sign operand, writable, reads => by
    rw [readsBack, Bool.and_eq_true, Bool.or_eq_true, Bool.or_eq_true, beq_iff_eq, or_assoc] at reads
    have inner : operand.isWritable = true := writable
    exact isReadBack_signed (isReadBack_of_readsBack inner reads.1) reads.2
  | .binary op left right, writable, reads => by
    rw [isWritable, Bool.and_eq_true] at writable
    rw [readsBack, Bool.and_eq_true, Bool.and_eq_true, Bool.and_eq_true, Bool.and_eq_true,
      Bool.not_eq_true'] at reads
    obtain ⟨⟨⟨⟨readsLeft, readsRight⟩, signLeft⟩, signRight⟩, noCall⟩ := reads
    exact isReadBack_binary (isReadBack_of_readsBack writable.1 readsLeft)
      (isReadBack_of_readsBack writable.2 readsRight) (fits_of_sign signLeft)
      (fits_of_sign signRight) noCall
  | .call name args, writable, reads => fun deep => by
    rw [isWritable, Bool.and_eq_true] at writable
    rw [height] at deep
    rw [form, render]
    exact isWritten_operand ((writesArguments_of_readsBack writable.2 reads (by omega)).call
      writable.1)

/-- Arguments that are read as they are meant are written as arguments. -/
theorem writesArguments_of_readsBack : ∀ {es : List Expr}, areWritable es = true →
    readsBackAll es = true → ∀ {depth : Nat}, 4 * heightAll es ≤ depth →
      WritesArguments depth (commaSeparated (renderAll es)) (formTrees es)
  | [], _, _, _, _ => Grammar.writesArguments_nil _
  | [e], writable, reads, depth, deep => by
    rw [areWritable, Bool.and_eq_true] at writable
    rw [readsBackAll, Bool.and_eq_true] at reads
    have positive := e.height_pos
    rw [heightAll] at deep
    obtain ⟨inner, rfl⟩ : ∃ inner, depth = inner + 1 := ⟨depth - 1, by omega⟩
    exact (isReadBack_of_readsBack writable.1 reads.1 (by omega)).whole.argument
  | e :: next :: es, writable, reads, depth, deep => by
    rw [areWritable, Bool.and_eq_true] at writable
    rw [readsBackAll, Bool.and_eq_true] at reads
    have positive := e.height_pos
    rw [heightAll] at deep
    have others := writesArguments_of_readsBack writable.2 reads.2 (by omega : _ ≤ depth)
    obtain ⟨inner, rfl⟩ : ∃ inner, depth = inner + 1 := ⟨depth - 1, by omega⟩
    have first := (isReadBack_of_readsBack writable.1 reads.1 (by omega : _ ≤ inner + 1)).whole
    rw [renderAll, renderAll, Grammar.commaSeparated_cons_cons]
    exact first.arguments others

end

/-- The text of a writable tree is parsed as the tree of its form, under every limit that is large
enough. -/
theorem parse_render_of_readsBack {e : Expr} (writable : e.isWritable = true)
    (reads : e.readsBack = true) {maxDepth : Nat} (deep : 4 * e.height ≤ maxDepth)
    (low : e.form.tree.height ≤ maxDepth) : parse maxDepth e.render = .ok e.form.tree := by
  have positive := e.height_pos
  obtain ⟨inner, rfl⟩ : ∃ inner, maxDepth = inner + 1 := ⟨maxDepth - 1, by omega⟩
  exact (isReadBack_of_readsBack writable reads (by omega)).whole.parse_eq_ok (Nat.le_refl _) low

end Expr

end Reckon
