import Reckon.Expr.Printer
import Reckon.Proofs.Decimal.Value
import Reckon.Proofs.Syntax.Writing

/-!
# Parsing undoes printing

The printer puts in parentheses exactly what would be read differently without them. A printed tree
is read back with its numbers in normal form and without its unary plus signs, which are not
written. Parentheses nest expressions, so twice the height of a tree is as deep as its text nests.
-/

namespace Reckon.Expr

open Token (isIdentifier)

/-! ## Printable trees -/

/-- Whether a tree is a definition. -/
def isDefinition : Expr → Bool
  | .definition _ _ _ => true
  | _ => false

/-- Whether the printed text ends with the closing parenthesis of a call. -/
def endsWithCall : Expr → Bool
  | .signed _ operand => !operand.needsParensBelowSign && operand.endsWithCall
  | .binary op _ right => !right.needsParens op true && right.endsWithCall
  | .definition _ _ body => body.endsWithCall
  | .call _ _ => true
  | _ => false

mutual

/-- Whether parsing undoes printing of a tree: no negative numbers and no monomials, names that can
be read, vectors as the columns of matrices and nowhere else, and no call right in front of a single
equals sign. -/
def isPrintable : Expr → Bool
  | .number value => decide (0 ≤ value.signed)
  | .variable name term => term.isNone && isIdentifier name
  | .signed _ operand => operand.isPrintable
  | .binary op left right =>
    left.isPrintable && right.isPrintable &&
      !(op == .assign && !left.needsParens op false && left.endsWithCall)
  | .vector _ => false
  | .matrix columns => !columns.isEmpty && areColumns columns
  | .definition name params body =>
    isIdentifier name && params.all isIdentifier && body.isPrintable
  | .call name args => isIdentifier name && arePrintable args

/-- Whether parsing undoes printing of some trees. -/
def arePrintable : List Expr → Bool
  | [] => true
  | e :: es => e.isPrintable && arePrintable es

/-- Whether some trees are vectors of printable trees. -/
def areColumns : List Expr → Bool
  | [] => true
  | .vector items :: columns => arePrintable items && areColumns columns
  | _ :: _ => false

end

mutual

/-- The tree without its unary plus signs. -/
def withoutPlus : Expr → Expr
  | .number value => .number value
  | .variable name term => .variable name term
  | .signed .positive operand => operand.withoutPlus
  | .signed .negative operand => .signed .negative operand.withoutPlus
  | .binary op left right => .binary op left.withoutPlus right.withoutPlus
  | .vector items => .vector (allWithoutPlus items)
  | .matrix columns => .matrix (allWithoutPlus columns)
  | .definition name params body => .definition name params body.withoutPlus
  | .call name args => .call name (allWithoutPlus args)

/-- Some trees without their unary plus signs. -/
def allWithoutPlus : List Expr → List Expr
  | [] => []
  | e :: es => e.withoutPlus :: allWithoutPlus es

end

mutual

/-- Whether a unary plus sign occurs in a tree. -/
def hasPlus : Expr → Bool
  | .signed .positive _ => true
  | .signed .negative operand => operand.hasPlus
  | .binary _ left right => left.hasPlus || right.hasPlus
  | .vector items => anyHasPlus items
  | .matrix columns => anyHasPlus columns
  | .definition _ _ body => body.hasPlus
  | .call _ args => anyHasPlus args
  | _ => false

/-- Whether a unary plus sign occurs in one of some trees. -/
def anyHasPlus : List Expr → Bool
  | [] => false
  | e :: es => e.hasPlus || anyHasPlus es

end

mutual

/-- The tree that is read from the printed text: numbers are in normal form, and no unary plus is
written. -/
def readBack : Expr → Expr
  | .number value => .number value.normalize
  | .variable name term => .variable name term
  | .signed .positive operand => operand.readBack
  | .signed .negative operand => .signed .negative operand.readBack
  | .binary op left right => .binary op left.readBack right.readBack
  | .vector items => .vector (allReadBack items)
  | .matrix columns => .matrix (allReadBack columns)
  | .definition name params body => .definition name params body.readBack
  | .call name args => .call name (allReadBack args)

/-- The trees that are read from the printed texts. -/
def allReadBack : List Expr → List Expr
  | [] => []
  | e :: es => e.readBack :: allReadBack es

end

/-- A number that is not negative has no sign in normal form. -/
theorem negative_normalize_of_nonneg {d : Decimal} (h : 0 ≤ d.signed) :
    d.normalize.negative = false := by
  rw [Decimal.signed] at h
  change (d.negative && d.mantissa != 0) = false
  by_cases zero : d.mantissa = 0
  · rw [zero]
    exact Bool.and_false _
  · split at h
    · omega
    · next positive => rw [eq_false_of_ne_true positive, Bool.false_and]

/-- The level of the grammar on which a printed tree is read. -/
def tightness : Expr → Nat
  | .binary op _ _ => op.precedence
  | _ => 5

/-- Every tree is written on one of the five levels of the grammar. -/
theorem tightness_bounds (e : Expr) : 1 ≤ e.tightness ∧ e.tightness ≤ 5 := by
  cases e with
  | binary op left right =>
    have bounds := op.precedence_bounds
    rw [tightness]
    omega
  | _ => simp [tightness]

/-! ## What is read back -/

mutual

/-- Without its plus signs, a tree without plus signs is itself. -/
theorem withoutPlus_of_hasPlus_eq_false : ∀ {e : Expr}, e.hasPlus = false → e.withoutPlus = e
  | .number _, _ => rfl
  | .variable _ _, _ => rfl
  | .signed .positive _, h => by cases h
  | .signed .negative operand, h => by
    have inner : operand.withoutPlus = operand := withoutPlus_of_hasPlus_eq_false h
    rw [withoutPlus, inner]
  | .binary op left right, h => by
    rw [hasPlus, Bool.or_eq_false_iff] at h
    rw [withoutPlus, withoutPlus_of_hasPlus_eq_false h.1, withoutPlus_of_hasPlus_eq_false h.2]
  | .vector items, h => by
    have inner : allWithoutPlus items = items := allWithoutPlus_of_anyHasPlus_eq_false h
    rw [withoutPlus, inner]
  | .matrix columns, h => by
    have inner : allWithoutPlus columns = columns := allWithoutPlus_of_anyHasPlus_eq_false h
    rw [withoutPlus, inner]
  | .definition name params body, h => by
    have inner : body.withoutPlus = body := withoutPlus_of_hasPlus_eq_false h
    rw [withoutPlus, inner]
  | .call name args, h => by
    have inner : allWithoutPlus args = args := allWithoutPlus_of_anyHasPlus_eq_false h
    rw [withoutPlus, inner]

/-- Trees without unary plus signs are what is left when these are dropped. -/
theorem allWithoutPlus_of_anyHasPlus_eq_false :
    ∀ {es : List Expr}, anyHasPlus es = false → allWithoutPlus es = es
  | [], _ => rfl
  | e :: es, h => by
    rw [anyHasPlus, Bool.or_eq_false_iff] at h
    rw [allWithoutPlus, withoutPlus_of_hasPlus_eq_false h.1,
      allWithoutPlus_of_anyHasPlus_eq_false h.2]

end

/-- A monomial is the same as itself by value. -/
theorem sameTerm_self (term : Option Monomial) : sameTerm term term = true := by
  cases term with
  | none => rfl
  | some term => rw [sameTerm, Decimal.same_self, Decimal.same_self]; rfl

mutual

/-- What is read back is the tree without its plus signs, numbers compared by value. -/
theorem readBack_same : ∀ e : Expr, e.readBack.same e.withoutPlus = true
  | .number value => Decimal.normalize_same value
  | .variable name term => by
    rw [readBack, withoutPlus, same, sameTerm_self, beq_self_eq_true]
    rfl
  | .signed .positive operand => readBack_same operand
  | .signed .negative operand => by
    rw [readBack, withoutPlus, same, readBack_same operand]
    rfl
  | .binary op left right => by
    rw [readBack, withoutPlus, same, readBack_same left, readBack_same right, beq_self_eq_true]
    rfl
  | .vector items => allReadBack_same items
  | .matrix columns => allReadBack_same columns
  | .definition name params body => by
    rw [readBack, withoutPlus, same, readBack_same body, beq_self_eq_true, beq_self_eq_true]
    rfl
  | .call name args => by
    rw [readBack, withoutPlus, same, allReadBack_same args, beq_self_eq_true]
    rfl

/-- What some trees are read back as is the same by value, without unary plus signs. -/
theorem allReadBack_same : ∀ es : List Expr, sameAll (allReadBack es) (allWithoutPlus es) = true
  | [] => rfl
  | e :: es => by
    rw [allReadBack, allWithoutPlus, sameAll, readBack_same e, allReadBack_same es]
    rfl

end

mutual

/-- What is read back is not higher than what was printed. -/
theorem height_readBack_le : ∀ e : Expr, e.readBack.height ≤ e.height
  | .number _ => Nat.le_refl _
  | .variable _ _ => Nat.le_refl _
  | .signed .positive operand => Nat.le_succ_of_le (height_readBack_le operand)
  | .signed .negative operand => Nat.succ_le_succ (height_readBack_le operand)
  | .binary op left right => by
    have onLeft := height_readBack_le left
    have onRight := height_readBack_le right
    rw [readBack, height, height]
    omega
  | .vector items => Nat.succ_le_succ (heightAll_allReadBack_le items)
  | .matrix columns => Nat.succ_le_succ (heightAll_allReadBack_le columns)
  | .definition _ _ body => Nat.succ_le_succ (height_readBack_le body)
  | .call _ args => Nat.succ_le_succ (heightAll_allReadBack_le args)

/-- Reading some trees back makes none of them higher. -/
theorem heightAll_allReadBack_le : ∀ es : List Expr, heightAll (allReadBack es) ≤ heightAll es
  | [] => Nat.le_refl _
  | e :: es => by
    have first := height_readBack_le e
    have others := heightAll_allReadBack_le es
    rw [allReadBack, heightAll, heightAll]
    omega

end

/-! ## Printed texts -/

open Grammar (Writes WritesWhole WritesArguments WritesElements WritesColumns)

/-- The printed text is read back: as an expression, and as a phrase unless it is a definition. -/
structure Printed (e : Expr) : Prop where
  whole : ∀ {depth : Nat}, 2 * e.height ≤ depth → WritesWhole depth e.render e.readBack
  phrase : e.isDefinition = false → ∀ {depth : Nat}, 2 * e.height ≤ depth + 1 →
    Writes depth e.tightness e.render e.readBack e.endsWithCall

/-- What is read as a phrase is read as an expression, one level deeper. -/
theorem printed_of_writes {e : Expr}
    (h : ∀ {depth : Nat}, 2 * e.height ≤ depth + 1 →
      Writes depth e.tightness e.render e.readBack e.endsWithCall) : Printed e := by
  refine ⟨fun {depth} deep => ?_, fun _ _ => h⟩
  have positive := e.height_pos
  obtain ⟨inner, rfl⟩ : ∃ inner, depth = inner + 1 := ⟨depth - 1, by omega⟩
  exact (h deep).whole e.tightness_bounds.1 e.tightness_bounds.2

/-- An operand without parentheses is no definition, and it is read where it stands. -/
theorem tightness_of_needsParens_eq_false {parent : Operator} {right : Bool} {e : Expr}
    (h : e.needsParens parent right = false) :
    e.isDefinition = false ∧ parent.precedence + right.toNat ≤ e.tightness := by
  have small := parent.precedence_bounds.2
  have one : right.toNat ≤ 1 := Bool.toNat_le right
  cases e with
  | binary op _ _ =>
    refine ⟨rfl, ?_⟩
    rw [needsParens, Bool.or_eq_false_iff, decide_eq_false_iff_not] at h
    rw [tightness]
    cases right with
    | false =>
      rw [Bool.toNat_false]
      omega
    | true =>
      have other : op.precedence ≠ parent.precedence := by simpa using h.2
      rw [Bool.toNat_true]
      omega
  | definition _ _ _ => cases h
  | _ =>
    refine ⟨rfl, ?_⟩
    simp only [tightness]
    omega

/-- An operand is read on the side of its operator, in parentheses or not. -/
theorem Printed.operand {e : Expr} (h : Printed e) (parent : Operator) (right : Bool)
    {depth : Nat} (deep : 2 * e.height ≤ depth) :
    Writes depth (parent.precedence + right.toNat)
      (parenthesized (e.needsParens parent right) e.render) e.readBack
      (!e.needsParens parent right && e.endsWithCall) := by
  have bound : parent.precedence + right.toNat ≤ 5 := by
    have small := parent.precedence_bounds.2
    have one : right.toNat ≤ 1 := Bool.toNat_le right
    omega
  cases needed : e.needsParens parent right with
  | true => exact (h.whole deep).parenthesized.loosen bound (Nat.le_refl 5)
  | false =>
    obtain ⟨noDefinition, tight⟩ := tightness_of_needsParens_eq_false needed
    exact (h.phrase noDefinition (Nat.le_succ_of_le deep)).loosen tight e.tightness_bounds.2

/-- Below a sign stand operands of the grammar. -/
theorem Printed.belowSign {e : Expr} (h : Printed e) {depth : Nat} (deep : 2 * e.height ≤ depth) :
    Writes depth 5 (parenthesized e.needsParensBelowSign e.render) e.readBack
      (!e.needsParensBelowSign && e.endsWithCall) := by
  cases needed : e.needsParensBelowSign with
  | true => exact (h.whole deep).parenthesized
  | false =>
    have noDefinition : e.isDefinition = false := by
      cases e with
      | definition _ _ _ => cases needed
      | _ => rfl
    have tight : e.tightness = 5 := by
      cases e with
      | binary _ _ _ => cases needed
      | _ => simp [tightness]
    have phrase := h.phrase noDefinition (Nat.le_succ_of_le deep)
    rw [tight] at phrase
    exact phrase

/-- An operator may follow an operand, however it is written. -/
theorem tail_infixText (op : Operator) {cs : List Char} {ks : List Token.Kind}
    (h : Token.Spells cs ks) :
    Grammar.Tail ((infixText op).toList ++ cs) (.operator op :: ks) := by
  unfold infixText
  split
  · exact .caret h
  · simp only [String.toList_append, List.append_assoc]
    exact .spaced op h

/-- The operator is written between its operands. -/
theorem printed_binary {op : Operator} {left right : Expr} (onLeft : Printed left)
    (onRight : Printed right)
    (noCall : (op == .assign && !left.needsParens op false && left.endsWithCall) = false) :
    Printed (.binary op left right) := by
  refine printed_of_writes fun {depth} deep => ?_
  have depths : 2 * left.height ≤ depth ∧ 2 * right.height ≤ depth := by
    rw [height] at deep
    omega
  have before := onLeft.operand op false depths.1
  have after := onRight.operand op true depths.2
  rw [Bool.toNat_false, Nat.add_zero] at before
  rw [render, readBack, tightness, endsWithCall]
  refine .joined rfl (tail_infixText op) (fun assign => ?_) before after
  rw [assign] at noCall ⊢
  rw [beq_self_eq_true, Bool.true_and] at noCall
  exact noCall

/-- A minus sign is written, a plus sign is not. -/
theorem printed_signed {sign : Sign} {operand : Expr} (h : Printed operand) :
    Printed (.signed sign operand) := by
  refine printed_of_writes fun {depth} deep => ?_
  rw [height] at deep
  rw [render, tightness, endsWithCall]
  · cases sign with
    | positive =>
      rw [readBack, if_neg (by decide), String.empty_append]
      exact h.belowSign (by omega)
    | negative =>
      obtain ⟨inner, rfl⟩ : ∃ inner, depth = inner + 1 := ⟨depth - 1, by omega⟩
      rw [readBack, if_pos rfl]
      exact (h.belowSign (by omega)).minus
  · exact nofun

mutual

/-- The text of a printable tree is read back. -/
theorem printed_of_isPrintable : ∀ {e : Expr}, e.isPrintable = true → Printed e
  | .number value, h =>
    printed_of_writes fun _ =>
      Grammar.writes_number _ (negative_normalize_of_nonneg (of_decide_eq_true h))
  | .variable name (some _), h => by cases h
  | .variable name none, h =>
    printed_of_writes fun _ => Grammar.writes_name _ h
  | .signed sign operand, h => printed_signed (printed_of_isPrintable h)
  | .binary op left right, h => by
    rw [isPrintable, Bool.and_eq_true, Bool.and_eq_true, Bool.not_eq_true'] at h
    exact printed_binary (printed_of_isPrintable h.1.1) (printed_of_isPrintable h.1.2) h.2
  | .vector _, h => by cases h
  | .matrix [], h => by cases h
  | .matrix (column :: columns), h => by
    rw [isPrintable, Bool.and_eq_true] at h
    refine printed_of_writes fun {depth} deep => ?_
    rw [height] at deep
    exact (writesColumns_of_areColumns h.2 (by omega)).matrix
  | .definition name params body, h => by
    rw [isPrintable, Bool.and_eq_true, Bool.and_eq_true, List.all_eq_true] at h
    have inner := printed_of_isPrintable h.2
    refine ⟨fun {depth} deep => ?_, nofun⟩
    rw [height] at deep
    obtain ⟨below, rfl⟩ : ∃ below, depth = below + 1 := ⟨depth - 1, by omega⟩
    exact (inner.whole (by omega)).definition h.1.1 h.1.2
  | .call name args, h => by
    rw [isPrintable, Bool.and_eq_true] at h
    refine printed_of_writes fun {depth} deep => ?_
    rw [height] at deep
    exact (writesArguments_of_arePrintable h.2 (by omega)).call h.1

/-- Printable arguments are written as what they are read back as. -/
theorem writesArguments_of_arePrintable : ∀ {es : List Expr}, arePrintable es = true →
    ∀ {depth : Nat}, 2 * heightAll es ≤ depth →
      WritesArguments depth (commaSeparated (renderAll es)) (allReadBack es)
  | [], _, _, _ => Grammar.writesArguments_nil _
  | [e], h, depth, deep => by
    rw [arePrintable, Bool.and_eq_true] at h
    rw [heightAll] at deep
    exact ((printed_of_isPrintable h.1).whole (by omega)).argument
  | e :: next :: es, h, depth, deep => by
    rw [arePrintable, Bool.and_eq_true] at h
    rw [heightAll] at deep
    have others := writesArguments_of_arePrintable h.2 (by omega : _ ≤ depth)
    have first := (printed_of_isPrintable h.1).whole (by omega : _ ≤ depth)
    rw [renderAll, renderAll, Grammar.commaSeparated_cons_cons]
    exact first.arguments others

/-- Printable elements are written as what they are read back as. -/
theorem writesElements_of_arePrintable : ∀ {es : List Expr}, arePrintable es = true →
    ∀ {depth : Nat}, 2 * heightAll es ≤ depth →
      WritesElements depth (commaSeparated (renderAll es)) (allReadBack es)
  | [], _, _, _ => Grammar.writesElements_nil _
  | [e], h, depth, deep => by
    rw [arePrintable, Bool.and_eq_true] at h
    rw [heightAll] at deep
    exact ((printed_of_isPrintable h.1).whole (by omega)).element
  | e :: next :: es, h, depth, deep => by
    rw [arePrintable, Bool.and_eq_true] at h
    rw [heightAll] at deep
    have others := writesElements_of_arePrintable h.2 (by omega : _ ≤ depth)
    have first := (printed_of_isPrintable h.1).whole (by omega : _ ≤ depth)
    rw [renderAll, renderAll, Grammar.commaSeparated_cons_cons]
    exact first.elements others

/-- The columns of a printable matrix are written as what they are read back as. -/
theorem writesColumns_of_areColumns : ∀ {columns : List Expr}, areColumns columns = true →
    ∀ {depth : Nat}, 2 * heightAll columns ≤ depth →
      WritesColumns depth (String.join (renderAll columns)) (allReadBack columns)
  | [], _, _, _ => Grammar.writesColumns_nil _
  | .vector items :: columns, h, depth, deep => by
    rw [areColumns, Bool.and_eq_true] at h
    rw [heightAll, height] at deep
    have others := writesColumns_of_areColumns h.2 (by omega : _ ≤ depth)
    have first := writesElements_of_arePrintable h.1 (by omega : _ ≤ depth)
    rw [renderAll, String.join_cons, render]
    exact first.columns others

end

/-- Parsing undoes printing. Under a limit of twice its height, the text of a printable tree is
parsed as that tree without its unary plus signs, numbers compared by value; a tree without unary
plus signs is that tree itself. -/
theorem parse_render {e : Expr} (printable : e.isPrintable = true) {maxDepth : Nat}
    (deep : 2 * e.height ≤ maxDepth) :
    (∃ result, parse maxDepth e.render = .ok result ∧ result.same e.withoutPlus = true) ∧
      (e.hasPlus = false → e.withoutPlus = e) := by
  refine ⟨⟨e.readBack, ?_, readBack_same e⟩, withoutPlus_of_hasPlus_eq_false⟩
  have low : e.readBack.height ≤ maxDepth := by
    have lower := height_readBack_le e
    omega
  exact ((printed_of_isPrintable printable).whole deep).parse_eq_ok (Nat.le_refl _) low

/-- A definition with a signed power below a power, and with a plus sign that is not written. -/
theorem parse_render_definition :
    let body : Expr := .binary .power
      (.signed .negative (.binary .power (.plain "x") (.number .two)))
      (.call "g" [.signed .positive (.plain "x"), .number .one])
    let tree : Expr := .definition "f" ["x"] body
    tree.isPrintable = true ∧ 2 * tree.height ≤ 12 ∧
      (∃ result, parse 12 tree.render = .ok result ∧ result.same tree.withoutPlus = true) ∧
        (tree.hasPlus = false → tree.withoutPlus = tree) := by
  intro body tree
  have printable : tree.isPrintable = true := by decide
  have deep : 2 * tree.height ≤ 12 := by decide
  exact ⟨printable, deep, parse_render printable deep⟩

end Reckon.Expr
