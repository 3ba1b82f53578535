import Reckon.Proofs.Syntax.StoredSteps

/-!
# The fuel of the procedures over stored tokens

Fuel says only how deep calls may nest. A procedure that has an outcome has the same one with more
of it, so an outcome belongs to the reader alone.
-/

namespace Reckon.Procedure

variable {α β : Type} {x y : Procedure α}

/-- Where the first procedure has an outcome, the second one has the same. -/
def ExtendedBy (x y : Procedure α) : Prop :=
  ∀ r p, x.on r = some p → y.on r = some p

namespace ExtendedBy

/-- Every procedure is extended by itself. -/
theorem refl (x : Procedure α) : x.ExtendedBy x :=
  fun _ _ ends => ends

/-- What has no outcome is extended by everything. -/
theorem unended (x : Procedure α) : Procedure.unended.ExtendedBy x := by
  intro r p ends
  cases ends

/-- Procedures one after the other are extended by those that extend them. -/
theorem bind {f g : α → Procedure β} (h : x.ExtendedBy y) (h' : ∀ a, (f a).ExtendedBy (g a)) :
    (x >>= f).ExtendedBy (y >>= g) := by
  intro r p ends
  cases first : x.on r with
  | none =>
    rw [on_bind, first] at ends
    cases ends
  | some reached =>
    obtain ⟨outcome, r'⟩ := reached
    cases outcome with
    | error stop =>
      rw [on_bind_error first] at ends
      rw [on_bind_error (h r _ first), ends]
    | ok a =>
      rw [on_bind_ok first] at ends
      rw [on_bind_ok (h r _ first)]
      exact h' a r' p ends

/-- A choice between procedures is extended by the choice between those that extend them. -/
theorem ite {c : Prop} [Decidable c] {x' y' : Procedure α} (h : x.ExtendedBy y)
    (h' : x'.ExtendedBy y') : (if c then x else x').ExtendedBy (if c then y else y') := by
  split
  · exact h
  · exact h'

/-- A procedure with a level of its own is extended by the one that extends it. -/
theorem within (h : x.ExtendedBy y) : (within x).ExtendedBy (within y) := by
  refine (refl enter).bind fun _ r p ends => ?_
  rw [closing_on] at ends ⊢
  cases first : x.on r with
  | none =>
    rw [first] at ends
    cases ends
  | some reached =>
    rw [first] at ends
    rw [h r reached first, ends]

end ExtendedBy

/-! ## One call more -/

/-- One unit of fuel more extends the reading of parameters. -/
theorem parameters_extendedBy (fuel : Nat) :
    (parameters fuel).ExtendedBy (parameters (fuel + 1)) := by
  induction fuel with
  | zero => exact .unended _
  | succ fuel ih =>
    rw [parameters, parameters]
    refine (ExtendedBy.refl _).bind fun t => ?_
    cases t.kind with
    | name name =>
      refine (ExtendedBy.refl _).bind fun _ => (ExtendedBy.refl _).bind fun u => .ite ?_ (.refl _)
      exact (ExtendedBy.refl _).bind fun _ => ih.bind fun _ => .refl _
    | _ => exact .refl _

/-- One unit of fuel more extends the reading of a list of parameters. -/
theorem parameterList_extendedBy (fuel : Nat) :
    (parameterList fuel).ExtendedBy (parameterList (fuel + 1)) := by
  rw [parameterList, parameterList]
  refine (ExtendedBy.refl _).bind fun t => .ite (.refl _) ?_
  exact (parameters_extendedBy fuel).bind fun _ => .refl _

/-- With the fuel for one call more, every procedure has the outcomes it has. -/
structure Extends (fuel : Nat) : Prop where
  expression : (expression fuel).ExtendedBy (expression (fuel + 1))
  level (n : Nat) : (level fuel n).ExtendedBy (level (fuel + 1) n)
  chain (n : Nat) (left : Expr) (height : Nat) :
    (chain fuel n left height).ExtendedBy (chain (fuel + 1) n left height)
  unary : (unary fuel).ExtendedBy (unary (fuel + 1))
  primary : (primary fuel).ExtendedBy (primary (fuel + 1))
  afterName (name : String) : (afterName fuel name).ExtendedBy (afterName (fuel + 1) name)
  definition (name : String) : (definition fuel name).ExtendedBy (definition (fuel + 1) name)
  call (name : String) : (call fuel name).ExtendedBy (call (fuel + 1) name)
  arguments (name : String) : (arguments fuel name).ExtendedBy (arguments (fuel + 1) name)
  matrix : (matrix fuel).ExtendedBy (matrix (fuel + 1))
  columns : (columns fuel).ExtendedBy (columns (fuel + 1))
  vector : (vector fuel).ExtendedBy (vector (fuel + 1))
  elements : (elements fuel).ExtendedBy (elements (fuel + 1))

/-- Without fuel no procedure ends, so all are extended. -/
theorem extends_zero : Extends 0 where
  expression := .unended _
  level _ := .unended _
  chain _ _ _ := .unended _
  unary := .unended _
  primary := .unended _
  afterName _ := .unended _
  definition _ := .unended _
  call _ := .unended _
  arguments _ := .unended _
  matrix := .unended _
  columns := .unended _
  vector := .unended _
  elements := .unended _

/-- If one unit of fuel more extends all procedures, so does the next one. -/
theorem extends_succ {fuel : Nat} (h : Extends fuel) : Extends (fuel + 1) where
  expression := by
    rw [expression, expression]
    exact (h.level 1).within
  level n := by
    rw [level, level]
    refine .ite ?_ h.unary
    exact (h.level (n + 1)).bind fun left => h.chain n left left.height
  chain n left height := by
    rw [chain, chain]
    refine (ExtendedBy.refl _).bind fun op? => ?_
    cases op? with
    | none => exact .refl _
    | some op =>
      refine (h.level (n + 1)).bind fun right => (ExtendedBy.refl _).bind fun higher => ?_
      exact h.chain n _ higher
  unary := by
    rw [unary, unary]
    refine (ExtendedBy.refl _).bind fun op? => ?_
    cases op? with
    | none => exact h.primary
    | some op => exact h.unary.within.bind fun _ => .refl _
  primary := by
    rw [primary, primary]
    refine (ExtendedBy.refl _).bind fun t => ?_
    cases t.kind with
    | name name => exact (ExtendedBy.refl _).bind fun _ => h.afterName name
    | leftParen => exact (ExtendedBy.refl _).bind fun _ => h.expression.bind fun _ => .refl _
    | leftBracket => exact h.matrix
    | _ => exact .refl _
  afterName name := by
    rw [afterName, afterName]
    refine (ExtendedBy.refl _).bind fun t => .ite ?_ (.refl _)
    exact (ExtendedBy.refl _).bind fun _ => .ite (h.definition name) (h.call name)
  definition name := by
    rw [definition, definition]
    refine (ExtendedBy.refl _).bind fun _ => (parameterList_extendedBy fuel).bind fun _ => ?_
    exact (ExtendedBy.refl _).bind fun _ => h.expression.bind fun _ => .refl _
  call name := by
    rw [call, call]
    refine (ExtendedBy.refl _).bind fun _ => (ExtendedBy.refl _).bind fun t => .ite (.refl _) ?_
    exact (h.arguments name).bind fun _ => .refl _
  arguments name := by
    rw [arguments, arguments]
    refine h.expression.bind fun arg => (ExtendedBy.refl _).bind fun t => .ite ?_ (.refl _)
    exact (ExtendedBy.refl _).bind fun _ => (h.arguments name).bind fun _ => .refl _
  matrix := by
    rw [matrix, matrix]
    exact h.columns.bind fun _ => .refl _
  columns := by
    rw [columns, columns]
    refine (ExtendedBy.refl _).bind fun t => .ite ?_ (.refl _)
    exact h.vector.bind fun _ => h.columns.bind fun _ => .refl _
  vector := by
    rw [vector, vector]
    exact (ExtendedBy.refl _).bind fun _ => h.elements.bind fun _ => .refl _
  elements := by
    rw [elements, elements]
    refine (ExtendedBy.refl _).bind fun t => .ite (.refl _) (.ite (.refl _) ?_)
    refine h.expression.bind fun item => (ExtendedBy.refl _).bind fun _ => ?_
    exact h.elements.bind fun _ => .refl _

/-- An expression has the same outcome with more fuel. -/
theorem expression_extendedBy {fuel more : Nat} (le : fuel ≤ more) :
    (expression fuel).ExtendedBy (expression more) := by
  have step (n : Nat) : Extends n := by
    induction n with
    | zero => exact extends_zero
    | succ n ih => exact extends_succ ih
  induction le with
  | refl => exact .refl _
  | @step n _ ih => exact fun r p ends => (step n).expression r p (ih r p ends)

end Reckon.Procedure
