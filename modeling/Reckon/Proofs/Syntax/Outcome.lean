import Reckon.Expr.Parser

/-!
# What the parsers yield

A parser is described by the results that it yields: a value and what is left of the stream. Each
combinator yields what its parts yield one after the other, and each parser of the grammar is opened
once here, so that the proofs about the grammar never look inside it.
-/

namespace Reckon.Expr

open Token

namespace Step

variable {α β : Type} {bound larger : Nat}

/-- The step ends well, with the given value in front of the given stream. -/
def Yields (step : Step α bound) (value : α) (rest : List Token) : Prop :=
  ∃ lighter, step = .done value rest lighter

/-- A finished step yields its value and its rest. -/
@[simp] theorem yields_done {value result : α} {rest behind : List Token}
    {lighter : weight rest < bound} :
    (done value rest lighter).Yields result behind ↔ value = result ∧ rest = behind := by
  constructor
  · rintro ⟨_, h⟩
    cases h
    exact ⟨rfl, rfl⟩
  · rintro ⟨rfl, rfl⟩
    exact ⟨lighter, rfl⟩

/-- A stuck step yields nothing. -/
@[simp] theorem not_yields_stuck {result : α} {fault : Fault} {rest behind : List Token} :
    ¬(stuck fault rest : Step α bound).Yields result behind := by
  rintro ⟨_, h⟩
  cases h

/-- A function on what is read is applied to what the step yields. -/
@[simp] theorem yields_map {step : Step α bound} {f : α → β} {result : β} {behind : List Token} :
    (step.map f).Yields result behind ↔ ∃ value, step.Yields value behind ∧ f value = result := by
  cases step with
  | done value rest lighter =>
    simp only [map, yields_done]
    constructor
    · rintro ⟨same, behind⟩
      exact ⟨value, ⟨rfl, behind⟩, same⟩
    · rintro ⟨_, ⟨rfl, behind⟩, same⟩
      exact ⟨same, behind⟩
  | stuck fault rest => simp [map]

/-- A looser bound on the rest does not change what a step yields. -/
@[simp] theorem yields_weaken {step : Step α bound} {h : bound ≤ larger} {result : α}
    {behind : List Token} :
    (step.weaken h).Yields result behind ↔ step.Yields result behind := by
  cases step <;> simp [weaken]

/-- Two steps one after the other yield what the second one yields behind the first. -/
theorem yields_andThen {step : Step α bound}
    {next : (value : α) → (rest : List Token) → weight rest < bound → Step β bound}
    {result : β} {behind : List Token} :
    (step.andThen next).Yields result behind ↔
      ∃ value rest lighter, step.Yields value rest ∧
        (next value rest lighter).Yields result behind := by
  constructor
  · intro h
    cases step with
    | done value rest lighter => exact ⟨value, rest, lighter, ⟨lighter, rfl⟩, h⟩
    | stuck fault rest => exact absurd h not_yields_stuck
  · rintro ⟨value, rest, lighter, ⟨_, rfl⟩, h⟩
    exact h

/-- A step has a value as its outcome exactly when it yields the value. -/
theorem outcome_eq_ok_iff {step : Step α bound} {value : α} {rest : List Token} :
    step.outcome = (.ok value, rest) ↔ step.Yields value rest := by
  cases step <;> simp [outcome]

end Step

namespace Bounds

variable {α : Type} {bound : Nat} {b : Bounds}

/-- A parser without a level left yields nothing. -/
@[simp] theorem not_yields_tooDeep {tokens rest : List Token} {value : α} :
    ¬(b.tooDeep tokens : Step α bound).Yields value rest :=
  Step.not_yields_stuck

/-- A complaint yields nothing. -/
@[simp] theorem not_yields_complain {problem : String → ParseProblem} {tokens rest : List Token}
    {value : α} : ¬(b.complain problem tokens : Step α bound).Yields value rest :=
  Step.not_yields_stuck

/-- A tree passes if it is not too high. -/
@[simp] theorem yields_bounded {e result : Expr} {rest behind : List Token}
    {h : weight rest < bound} :
    (b.bounded e rest h).Yields result behind ↔
      e.height ≤ b.maxDepth ∧ e = result ∧ rest = behind := by
  unfold bounded
  split
  · next high => simp [Nat.not_le.2 high]
  · next low => simp [Nat.not_lt.1 low]

/-- Nothing but a token of the expected kind is taken. -/
@[simp] theorem yields_expect {kind : Token.Kind} {problem : String → ParseProblem}
    {tokens behind : List Token} {h : weight tokens < bound} {result : Unit} :
    (b.expect kind problem tokens h).Yields result behind ↔
      ∃ t, tokens = t :: behind ∧ t.kind = kind := by
  cases tokens with
  | nil => simp [expect]
  | cons t rest =>
    simp only [expect, List.cons.injEq]
    split
    · next same =>
      simp only [Step.yields_done, true_and]
      constructor
      · rintro rfl
        exact ⟨t, ⟨rfl, rfl⟩, same⟩
      · rintro ⟨_, ⟨_, rfl⟩, _⟩
        rfl
    · next other =>
      simp only [not_yields_complain, false_iff]
      rintro ⟨u, ⟨rfl, rfl⟩, same⟩
      exact other same

end Bounds

end Reckon.Expr
