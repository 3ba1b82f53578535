/-!
# Spans of code points

A character class outside ASCII is a list of closed spans of code points.
-/

namespace Reckon.Text

/-- A closed span of code points, first and last. -/
abbrev Span := Nat × Nat

/-- Whether a code point lies in one of the spans. -/
def inSpans (spans : List Span) (code : Nat) : Bool :=
  spans.any fun span => span.1 ≤ code && code ≤ span.2

/-- A code is in some spans exactly when it lies between the ends of one of them. -/
theorem inSpans_iff {spans : List Span} {code : Nat} :
    inSpans spans code = true ↔ ∃ span ∈ spans, span.1 ≤ code ∧ code ≤ span.2 := by
  simp only [inSpans, List.any_eq_true, Bool.and_eq_true, decide_eq_true_eq]

end Reckon.Text
