import Reckon.Proofs.Evaluation.Faults
import Reckon.Proofs.Syntax.Acceptance

/-!
# Height and levels

Without user functions an evaluation goes down the tree and nowhere else: every operand, argument,
bound and body takes one level below its own tree. So a tree is evaluated without coming to the limit
whenever it has no more levels than are allowed, and the parser answers with no other trees.
-/

namespace Reckon

/-! ## Faults that are not about the limit -/

/-- The fault is not that a limit of nesting was exceeded, whatever its number. -/
def Fault.IsNoLimit (fault : Fault) : Prop :=
  ∀ limit, fault ≠ .depthExceeded limit

/-- A computation is unstopped exactly when no fault of it is about a limit. -/
theorem unstopped_iff {α : Type} {x : Except Fault α} :
    Unstopped x ↔ FailsWithin Fault.IsNoLimit x := by
  constructor
  · rintro unstopped fault rfl limit rfl
    exact unstopped limit rfl
  · rintro fails limit rfl
    exact fails _ rfl limit rfl

/-- A problem of arithmetic is not about a limit. -/
theorem unstopped_arithmetic {α : Type} (problem : ArithmeticProblem) :
    Unstopped (.error (.arithmetic problem) : Except Fault α) :=
  nofun

/-- The faults of evaluation are not about a limit. -/
theorem Fault.isNoLimit_of_isOfEvaluation (fault : Fault) (h : fault.IsOfEvaluation) :
    fault.IsNoLimit := by
  rintro limit rfl
  exact h

/-! ## Functions that do not run into the limit -/

/-- The function does not report of itself that a limit on nesting was exceeded. -/
def Native.IsQuiet (native : Native) : Prop :=
  ∀ args, Unstopped (native.run args)

namespace Scope

/-- No text defined a function, and the native ones are quiet. -/
structure HasNoFunctions (s : Scope) : Prop where
  functions : ∀ name, s.functions.get? name = none
  natives : ∀ name native, s.natives.get? name = some native → native.IsQuiet

/-- No text has defined a function in the root scope. -/
theorem hasNoFunctions_root : root.HasNoFunctions where
  functions _ := rfl
  natives name native found args :=
    unstopped_iff.2 (nativesFailWithin_root.mono Fault.isNoLimit_of_isOfEvaluation name native found
      args)

/-- The scope of a sample has no functions either. -/
theorem HasNoFunctions.sample {s : Scope} (h : s.HasNoFunctions) (target : String) (value : Value) :
    (s.inherit.bind target value).HasNoFunctions :=
  ⟨h.functions, h.natives⟩

/-- Where no text has defined a function, the native ones fail with no fault about a limit. -/
theorem HasNoFunctions.natives_failWithin {s : Scope} (h : s.HasNoFunctions) :
    s.NativesFailWithin Fault.IsNoLimit :=
  fun name native known args => unstopped_iff.1 (h.natives name native known args)

end Scope

namespace Expr

variable {settings : Settings} {s : Scope}

/-- Without user functions a tree needs as many levels as it has itself. -/
theorem failsWithin_evalWithin_of_height_le {levels : Nat} {e : Expr} (h : s.HasNoFunctions)
    (low : e.height ≤ levels) : FailsWithin Fault.IsNoLimit (evalWithin settings levels s e) := by
  have covers := Fault.isNoLimit_of_isOfEvaluation
  induction levels generalizing s e with
  | zero => exact absurd low (Nat.not_le.2 e.height_pos)
  | succ levels ih =>
    cases e with
    | number d => exact failsWithin_ok _
    | «variable» name term =>
      rw [evalWithin_variable]
      exact s.failsWithin_valueOf covers name term
    | signed sign operand =>
      rw [height] at low
      rw [evalWithin_signed]
      exact (ih h (Nat.le_of_succ_le_succ low)).bind fun v => failsWithin_ok _
    | binary op left right =>
      rw [height] at low
      rw [evalWithin_binary]
      have below := Nat.le_of_succ_le_succ low
      refine (ih h (Nat.le_trans (Nat.le_max_left _ _) below)).bind fun l => ?_
      refine (ih h (Nat.le_trans (Nat.le_max_right _ _) below)).bind fun r => ?_
      exact Value.failsWithin_combine covers op l r
    | vector items => exact failsWithin_error (covers _ trivial)
    | matrix columns => exact failsWithin_error (covers _ trivial)
    | definition name params body => exact failsWithin_error (covers _ trivial)
    | call name args =>
      rw [height] at low
      have arguments : ∀ arg ∈ args, arg.height ≤ levels := fun arg mem =>
        Nat.le_trans (height_le_heightAll mem) (Nat.le_of_succ_le_succ low)
      exact failsWithin_call covers h.natives_failWithin (h.functions name)
        (fun arg mem => ih h (arguments arg mem))
        fun arg mem target x => ih (h.sample target (.number x)) (arguments arg mem)

end Expr

/-- A tree that the parser answers with is no higher than the limit, and where no text defined a
function and the native ones are quiet, evaluating it under that limit never comes to it, whatever
is bound and however integrals are nested. -/
theorem parsed_tree_is_safe {maxDepth : Nat} {text : String} {e : Expr}
    (parsed : Expr.parse maxDepth text = .ok e) :
    e.height ≤ maxDepth ∧
      ∀ (settings : Settings) (s : Scope), settings.maxDepth = maxDepth → s.HasNoFunctions →
        ∀ limit, e.eval settings s ≠ .error (.depthExceeded limit) := by
  have low := Grammar.height_le_of_parse parsed
  refine ⟨low, fun settings s same h => ?_⟩
  exact unstopped_iff.2 (Expr.failsWithin_evalWithin_of_height_le h (by omega))

/-- The nested integral has as many levels as the limit allows. -/
theorem parsed_tree_is_safe_nested :
    ∃ e, Expr.parse 4 "int(int(x * y, x, 0, 1), y, 0, 1)" = .ok e ∧ e.height = 4 ∧
      Scope.root.HasNoFunctions ∧
      ∀ limit, e.eval { maxDepth := 4 } Scope.root ≠ .error (.depthExceeded limit) := by
  have parsed : Expr.parse 4 "int(int(x * y, x, 0, 1), y, 0, 1)" =
      .ok (.call "int" [.call "int" [.binary .multiply (.plain "x") (.plain "y"), .plain "x",
        .number .zero, .number .one], .plain "y", .number .zero, .number .one]) := by decide +kernel
  exact ⟨_, parsed, by decide, Scope.hasNoFunctions_root,
    (parsed_tree_is_safe parsed).2 { maxDepth := 4 } Scope.root rfl Scope.hasNoFunctions_root⟩

end Reckon
