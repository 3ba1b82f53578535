import Reckon.Calculus.Annotation

/-!
# Folded monomials

Two operands fold into a variable in one of three ways: a number is multiplied into the coefficient
of a variable, from the left or from the right, or a variable without a monomial gets an exponent.
So folding keeps the names of a tree, it makes no tree taller, and what was folded does not fold
again.
-/

namespace Reckon.Expr

/-! ## Two operands -/

/-- The monomial of a variable, also of one that is written without. -/
def carried (term : Option Monomial) : Monomial :=
  term.getD ⟨.one, .one⟩

/-- What two operands fold into. -/
inductive Folds : Operator → Expr → Expr → Expr → Prop where
  | scaledRight {c coefficient : Decimal} {name : String} {term : Option Monomial}
      (product : c.mul? (carried term).coefficient = some coefficient) :
      Folds .multiply (.number c) (.variable name term)
        (.variable name (some ⟨coefficient, (carried term).exponent⟩))
  | scaledLeft {c coefficient : Decimal} {name : String} {term : Option Monomial}
      (product : c.mul? (carried term).coefficient = some coefficient) :
      Folds .multiply (.variable name term) (.number c)
        (.variable name (some ⟨coefficient, (carried term).exponent⟩))
  | power (name : String) (n : Decimal) :
      Folds .power (.variable name none) (.number n) (.variable name (some ⟨.one, n⟩))

variable {op : Operator} {left right folded : Expr}

/-- The monomial of a tree is that of a variable, which may be written without. -/
theorem termOf?_eq_some {e : Expr} {name : String} {term : Monomial} :
    e.termOf? = some (name, term) ↔
      ∃ written, e = .variable name written ∧ term = carried written := by
  constructor
  · intro h
    cases e with
    | «variable» own written =>
      cases h
      exact ⟨written, rfl, rfl⟩
    | _ => cases h
  · rintro ⟨written, rfl, rfl⟩
    rfl

/-- A number that is multiplied into a variable is multiplied into its coefficient and keeps its
exponent. -/
theorem exists_of_scaledVariable? {c : Decimal} {e : Expr}
    (h : scaledVariable? c e = some folded) : ∃ name term coefficient, e = .variable name term ∧
      c.mul? (carried term).coefficient = some coefficient ∧
      folded = .variable name (some ⟨coefficient, (carried term).exponent⟩) := by
  unfold scaledVariable? at h
  split at h
  · cases h
  · next name term isTerm =>
    obtain ⟨written, rfl, rfl⟩ := termOf?_eq_some.1 isTerm
    obtain ⟨coefficient, product, rfl⟩ := Option.map_eq_some_iff.1 h
    exact ⟨name, written, coefficient, rfl, product, rfl⟩

/-- What two operands are folded into is what they fold into by the rules. -/
theorem folds_of_foldTerm? (h : foldTerm? op left right = some folded) :
    Folds op left right folded := by
  unfold foldTerm? at h
  split at h
  · split at h
    · obtain ⟨name, term, coefficient, rfl, product, rfl⟩ := exists_of_scaledVariable? h
      exact .scaledRight product
    · obtain ⟨name, term, coefficient, rfl, product, rfl⟩ := exists_of_scaledVariable? h
      exact .scaledLeft product
    · cases h
  · split at h
    · next name n =>
      cases h
      exact .power name n
    · cases h
  · cases h

/-- Two operands stay under their operator, or they fold. -/
theorem foldBinary_cases (op : Operator) (left right : Expr) :
    foldTerm? op left right = none ∧ foldBinary op left right = .binary op left right ∨
      Folds op left right (foldBinary op left right) := by
  rw [foldBinary]
  cases folds : foldTerm? op left right with
  | none => exact .inl ⟨rfl, rfl⟩
  | some folded => exact .inr (folds_of_foldTerm? folds)

/-- Folding two operands keeps the names in them. -/
theorem mentions_foldBinary (name : String) (op : Operator) (left right : Expr) :
    (foldBinary op left right).mentions name = (left.mentions name || right.mentions name) := by
  rcases foldBinary_cases op left right with ⟨-, kept⟩ | folds
  · rw [kept, mentions]
  · generalize foldBinary op left right = folded at folds
    cases folds with
    | scaledRight product => exact (Bool.false_or _).symm
    | scaledLeft product => exact (Bool.or_false _).symm
    | power own n => exact (Bool.or_false _).symm

/-- Folding two operands makes no tree higher. -/
theorem height_foldBinary_le (op : Operator) (left right : Expr) :
    (foldBinary op left right).height ≤ max left.height right.height + 1 := by
  rcases foldBinary_cases op left right with ⟨-, kept⟩ | folds
  · exact Nat.le_of_eq (by rw [kept, height])
  · generalize foldBinary op left right = folded at folds
    cases folds <;> simp only [height] <;> omega

/-- Folding the operands that are folded already gives nothing new. -/
theorem annotate_foldBinary (onLeft : left.annotate = left) (onRight : right.annotate = right) :
    (foldBinary op left right).annotate = foldBinary op left right := by
  rcases foldBinary_cases op left right with ⟨-, kept⟩ | folds
  · rw [kept, annotate, onLeft, onRight, kept]
  · generalize foldBinary op left right = folded at folds
    cases folds <;> rfl

/-! ## Whole trees -/

mutual

/-- Folding keeps the names that occur free. -/
theorem mentions_annotate (name : String) : ∀ e : Expr, e.annotate.mentions name = e.mentions name
  | .number _ => rfl
  | .variable _ _ => rfl
  | .signed _ operand => mentions_annotate name operand
  | .binary op left right => by
    rw [annotate, mentions_foldBinary, mentions_annotate name left, mentions_annotate name right,
      mentions]
  | .vector items => mentionsAny_annotateAll name items
  | .matrix columns => mentionsAny_annotateAll name columns
  | .definition _ params body => congrArg (!params.contains name && ·) (mentions_annotate name body)
  | .call _ args => mentionsAny_annotateAll name args

/-- Annotating some trees keeps the names in them. -/
theorem mentionsAny_annotateAll (name : String) :
    ∀ es : List Expr, mentionsAny name (annotateAll es) = mentionsAny name es
  | [] => rfl
  | e :: es => by
    rw [annotateAll, mentionsAny, mentions_annotate name e, mentionsAny_annotateAll name es,
      mentionsAny]

end

mutual

/-- Folding makes no tree taller. -/
theorem height_annotate_le : ∀ e : Expr, e.annotate.height ≤ e.height
  | .number _ => Nat.le_refl _
  | .variable _ _ => Nat.le_refl _
  | .signed _ operand => Nat.succ_le_succ (height_annotate_le operand)
  | .binary op left right => by
    have folded := height_foldBinary_le op left.annotate right.annotate
    have onLeft := height_annotate_le left
    have onRight := height_annotate_le right
    rw [annotate, height]
    omega
  | .vector items => Nat.succ_le_succ (heightAll_annotateAll_le items)
  | .matrix columns => Nat.succ_le_succ (heightAll_annotateAll_le columns)
  | .definition _ _ body => Nat.succ_le_succ (height_annotate_le body)
  | .call _ args => Nat.succ_le_succ (heightAll_annotateAll_le args)

/-- Annotating some trees makes none of them higher. -/
theorem heightAll_annotateAll_le : ∀ es : List Expr, heightAll (annotateAll es) ≤ heightAll es
  | [] => Nat.le_refl _
  | e :: es => by
    have first := height_annotate_le e
    have others := heightAll_annotateAll_le es
    rw [annotateAll, heightAll, heightAll]
    omega

end

mutual

/-- A folded tree does not fold any further. -/
theorem annotate_annotate : ∀ e : Expr, e.annotate.annotate = e.annotate
  | .number _ => rfl
  | .variable _ _ => rfl
  | .signed sign operand => congrArg (signed sign) (annotate_annotate operand)
  | .binary _ left right => annotate_foldBinary (annotate_annotate left) (annotate_annotate right)
  | .vector items => congrArg vector (annotateAll_annotateAll items)
  | .matrix columns => congrArg matrix (annotateAll_annotateAll columns)
  | .definition name params body => congrArg (definition name params) (annotate_annotate body)
  | .call name args => congrArg (call name) (annotateAll_annotateAll args)

/-- Annotating some trees once more changes none of them. -/
theorem annotateAll_annotateAll :
    ∀ es : List Expr, annotateAll (annotateAll es) = annotateAll es
  | [] => rfl
  | e :: es => by
    rw [annotateAll, annotateAll, annotate_annotate e, annotateAll_annotateAll es]

end

end Reckon.Expr
