import Reckon.Proofs.Evaluation.Reaching
import Reckon.Proofs.Evaluation.SideBySide

/-!
# More levels

An evaluation that gives a value has not come to the limit, so with more levels it gives the same
value. Of the settings it looks at the measure of angles only. An evaluation that ends with a fault
may have come to the limit; it has if the fault names the limit, whatever the limit is.
-/

namespace Reckon

namespace Expr

/-- With more levels, evaluation gives the same value. -/
theorem evalWithin_of_le {settings settings' : Settings} (angle : settings'.angle = settings.angle)
    {levels more : Nat} (le : levels ≤ more) {s : Scope} {e : Expr} {w : Value}
    (h : evalWithin settings levels s e = .ok w) : evalWithin settings' more s e = .ok w := by
  obtain ⟨extra, rfl⟩ := Nat.exists_eq_add_of_le le
  have limits : ∀ s e, Extends Eq (.error (.depthExceeded settings.maxDepth))
      (evalWithin settings' extra s e) := fun _ _ _ => nofun
  have more := (lifts_extends Eq).evalWithin (fun _ => rfl) angle limits levels s e
  obtain ⟨w', result, same⟩ := more w h
  rw [result, same]

/-- What evaluates to a number reaches it with as many levels. -/
theorem reaches_of_evalWithin {settings : Settings} {levels : Nat} {s : Scope} {e : Expr}
    {v : Decimal} (h : evalWithin settings levels s e = .ok (.number v)) :
    e.Reaches settings.angle s levels v :=
  fun _ _ angle enough => ⟨v, evalWithin_of_le angle enough h, rfl⟩

/-! ## Coming to the limit -/

section

variable {settings : Settings} {s : Scope} {e : Expr}

/-- With more levels the outcome is the same, unless it was that there are too few. -/
theorem matchesUpTo_evalWithin (settings : Settings) {levels more : Nat} (le : levels ≤ more)
    (s : Scope) (e : Expr) :
    MatchesUpTo settings.maxDepth Eq Eq (evalWithin settings levels s e)
      (evalWithin settings more s e) := by
  obtain ⟨extra, rfl⟩ := Nat.exists_eq_add_of_le le
  have limits : ∀ s e, MatchesUpTo settings.maxDepth Eq Eq
      (.error (.depthExceeded settings.maxDepth))
      (evalWithin settings extra s e) := fun _ _ => .inl rfl
  exact (lifts_matchesUpTo settings.maxDepth Eq).evalWithin (fun _ => rfl) rfl limits levels s e

/-- Evaluation comes to the limit: what it gives names the limit, whichever number that is. -/
def ReachesLimit (settings : Settings) (s : Scope) (e : Expr) : Prop :=
  ∃ limit, e.evalWithin (settings.withMaxDepth limit) (settings.maxDepth + 1) s ≠ e.eval settings s

/-- The faults are the same, or each is that its limit was reached. -/
def SameUpToLimit (limit limit' : Nat) (f f' : Fault) : Prop :=
  f = f' ∨ f = .depthExceeded limit ∧ f' = .depthExceeded limit'

/-- With as many levels, another number for the limit only shows where the limit is named. -/
theorem matches_withMaxDepth (settings : Settings) (limit levels : Nat) (s : Scope) (e : Expr) :
    Matches (SameUpToLimit settings.maxDepth limit) Eq (evalWithin settings levels s e)
      (evalWithin (settings.withMaxDepth limit) levels s e) := by
  have angle : (settings.withMaxDepth limit).angle = settings.angle := rfl
  have limits : ∀ s e, Matches (SameUpToLimit settings.maxDepth limit) Eq
      (.error (.depthExceeded settings.maxDepth))
      (evalWithin (settings.withMaxDepth limit) 0 s e) := fun _ _ => .error (.inr ⟨rfl, rfl⟩)
  exact (lifts_matches _).evalWithin (fun _ => .inl rfl) angle limits levels s e

/-- A tree that reaches the limit is stopped by it. -/
theorem eval_of_reachesLimit (h : e.ReachesLimit settings s) :
    e.eval settings s = .error (.depthExceeded settings.maxDepth) := by
  obtain ⟨limit, differ⟩ := h
  have renamed := matches_withMaxDepth settings limit (settings.maxDepth + 1) s e
  rw [eval] at differ ⊢
  generalize evalWithin settings (settings.maxDepth + 1) s e = x at differ renamed ⊢
  generalize evalWithin (settings.withMaxDepth limit) (settings.maxDepth + 1) s e = y
    at differ renamed
  cases renamed with
  | ok same => exact absurd (congrArg _ same.symm) differ
  | error related =>
    rcases related with same | ⟨outcome, -⟩
    · exact absurd (congrArg _ same.symm) differ
    · rw [outcome]

/-- A tree with a value does not reach the limit. -/
theorem not_reachesLimit_of_eval_eq_ok {w : Value} (h : e.eval settings s = .ok w) :
    ¬e.ReachesLimit settings s := by
  intro reaches
  rw [eval_of_reachesLimit reaches] at h
  cases h

/-- An evaluation that does not come to the limit has the same outcome whatever number the limit is,
and from some number on the outcome does not name it. -/
theorem exists_limit_of_not_reachesLimit (h : ¬e.ReachesLimit settings s) :
    ∃ least, ∀ limit, least ≤ limit →
      e.evalWithin (settings.withMaxDepth limit) (settings.maxDepth + 1) s = e.eval settings s ∧
        e.eval settings s ≠ .error (.depthExceeded limit) := by
  have same : ∀ limit, e.evalWithin (settings.withMaxDepth limit) (settings.maxDepth + 1) s =
      e.eval settings s := fun limit => by_contra fun differ => h ⟨limit, differ⟩
  by_cases named : ∃ number, e.eval settings s = .error (.depthExceeded number)
  · obtain ⟨number, outcome⟩ := named
    refine ⟨number + 1, fun limit le => ⟨same limit, fun again => ?_⟩⟩
    rw [outcome] at again
    injections
    omega
  · exact ⟨0, fun limit _ => ⟨same limit, fun outcome => named ⟨limit, outcome⟩⟩⟩

end

end Expr

end Reckon
