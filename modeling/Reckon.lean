import Reckon.Calculus.Degree
import Reckon.Calculus.Derivative
import Reckon.Matrix.Literal
import Reckon.Matrix.Square
import Reckon.Proofs.Syntax.Lookahead
import Reckon.Proofs.Syntax.Outcome
import Reckon.Proofs.Syntax.Procedures
import Reckon.Proofs.Syntax.Soundness
import Reckon.Proofs.Syntax.Completeness
import Reckon.Proofs.Syntax.Limit
import Reckon.Proofs.Syntax.Room
import Reckon.Proofs.Decimal.Digits
import Reckon.Proofs.Syntax.Acceptance
import Reckon.Proofs.Token.Spelling
import Reckon.Proofs.Decimal.Value
import Reckon.Proofs.Syntax.Writing
import Reckon.Proofs.Syntax.RoundTrip
import Reckon.Proofs.Decimal.ByValue
import Reckon.Proofs.Decimal.Operators
import Reckon.Proofs.Syntax.Names
import Reckon.Proofs.Evaluation.Steps
import Reckon.Proofs.Evaluation.Numbers
import Reckon.Proofs.Evaluation.Texts
import Reckon.Proofs.Evaluation.Meaning
import Reckon.Proofs.Matrix.Echelon
import Reckon.Proofs.Matrix.Reduction
import Reckon.Proofs.Matrix.ExactRun
import Reckon.Proofs.Matrix.RowReduction
import Reckon.Proofs.Decimal.Exact
import Reckon.Proofs.Calculus.Meaning
import Reckon.Proofs.Calculus.FormalDerivative
import Reckon.Proofs.Evaluation.Reaching
import Reckon.Proofs.Evaluation.ExactSteps
import Reckon.Proofs.Syntax.Monomials
import Reckon.Proofs.Calculus.Regrouping
import Reckon.Proofs.Calculus.DerivativeText
import Reckon.Proofs.Decimal.Places
import Reckon.Proofs.Matrix.Perturbation
import Reckon.Proofs.Matrix.Tolerance
import Reckon.Proofs.Matrix.TriangularRun
import Reckon.Proofs.Matrix.ExpansionRun
import Reckon.Proofs.Matrix.Determinants
import Reckon.Proofs.Matrix.Combination
import Reckon.Proofs.Matrix.ReductionRun
import Reckon.Proofs.Matrix.Inverse
import Reckon.Proofs.Matrix.ExactDeterminants
import Reckon.Proofs.Matrix.Idempotence
import Reckon.Proofs.Evaluation.Levels
import Reckon.Proofs.Evaluation.Operands
import Reckon.Proofs.Matrix.SymbolicExpansion
import Reckon.Proofs.Evaluation.Scoping
import Reckon.Proofs.Session.Store
import Reckon.Proofs.Matrix.Systems
import Reckon.Proofs.Evaluation.Amounts
import Reckon.Proofs.Matrix.SymbolicRun
import Reckon.Proofs.Matrix.SymbolicSystems
import Reckon.Proofs.Comparison
import Reckon.Proofs.Evaluation.SideBySide
import Reckon.Proofs.Syntax.Parts
import Reckon.Proofs.Evaluation.Substitution
import Reckon.Proofs.Session.CallBindings
import Reckon.Proofs.Syntax.Printable
import Reckon.Proofs.Evaluation.Scales
import Reckon.Proofs.Evaluation.PrintedTrees
import Reckon.Proofs.Token.Concatenation
import Reckon.Proofs.Syntax.Concatenation
import Reckon.Proofs.Evaluation.Composition
import Reckon.Proofs.Session.Limit
import Reckon.Proofs.Evaluation.Height
import Reckon.Proofs.Session.Recency
import Reckon.Proofs.Matrix.StoredColumns
import Reckon.Proofs.Matrix.StoredOperations
import Reckon.Proofs.Matrix.StoredElimination
import Reckon.Proofs.Matrix.StoredMatrices
import Reckon.Proofs.Matrix.StoredRuns
import Reckon.Proofs.Decimal.Literals
import Reckon.Proofs.Token.LongestWord
import Reckon.Proofs.Token.Segmentation
import Reckon.Proofs.Syntax.ImpliedTimes
import Reckon.Proofs.Calculus.Degrees
import Reckon.Proofs.Calculus.LoweredDegree
import Reckon.Proofs.Calculus.Polynomials
import Reckon.Proofs.Evaluation.Renaming
import Reckon.Proofs.Calculus.Simpson
import Reckon.Proofs.Session.Integrals
import Reckon.Proofs.Evaluation.Demands
import Reckon.Proofs.Calculus.AnnotatedTrees
import Reckon.Proofs.Decimal.RoundingTwice
import Reckon.Proofs.Decimal.Nearest
import Reckon.Proofs.Decimal.Integers
import Reckon.Proofs.Decimal.WideIntegers
import Reckon.Proofs.Decimal.IntegerPowers
import Reckon.Proofs.Evaluation.Faults
import Reckon.Proofs.Calculus.LoweredExponents
import Reckon.Proofs.Calculus.ConstantFactors
import Reckon.Proofs.Matrix.Transposition
import Reckon.Proofs.Evaluation.PrintedMonomials
import Reckon.Proofs.Token.Atoms
import Reckon.Proofs.Evaluation.NegatedTexts
import Reckon.Proofs.Syntax.FilledTokens
import Reckon.Proofs.Syntax.StoredTokens
import Reckon.Proofs.Syntax.StoredSteps
import Reckon.Proofs.Syntax.StoredFuel
import Reckon.Proofs.Syntax.StoredProcedures
import Reckon.Proofs.Syntax.StoredCalls
import Reckon.Proofs.Matrix.Footprints
import Reckon.Proofs.Matrix.InPlace
import Reckon.Proofs.Matrix.WorkingCopies
