import Reckon.Proofs.Syntax.Completeness
import Reckon.Proofs.Syntax.Room

/-!
# The parser and its grammar

The parser answers with a tree exactly where the grammar derives that tree from all the tokens. The
limit on nesting enters the exact statement as a bound on the derivation and on the tree, and it
disappears for every text that the limit does not stop.
-/

namespace Reckon.Grammar

open Token
open Reckon.Expr (ofTokens expression Step)

/-- The tokens that a parser has ahead of it: those in front of the end token. -/
def ahead (tokens : List Token) : List Token :=
  tokens.takeWhile fun t => !t.isFinish

/-- A tree is answered if it is read from all that is ahead. -/
theorem ofTokens_eq_ok_iff_yields {maxDepth : Nat} {tokens : List Token} {e : Expr} :
    ofTokens maxDepth tokens = .ok e ↔
      (expression ⟨maxDepth, finishOf tokens⟩ maxDepth (ahead tokens)).Yields e [] := by
  rw [← Step.outcome_eq_ok_iff]
  unfold ofTokens Cursor.expression Cursor.ofTokens Cursor.expectEnd ahead
  generalize (expression _ _ _).outcome = outcome
  rcases outcome with ⟨_ | result, rest⟩
  · simp
  · cases rest <;> simp

/-- A parser under a limit answers with the trees of that many levels that are derived with that
much nesting. -/
theorem ofTokens_eq_ok_iff {maxDepth : Nat} {tokens : List Token} {e : Expr} :
    ofTokens maxDepth tokens = .ok e ↔
      Whole maxDepth (reading (ahead tokens)) e [] ∧ e.height ≤ maxDepth := by
  rw [ofTokens_eq_ok_iff_yields]
  constructor
  · intro yielded
    cases maxDepth with
    | zero => exact absurd yielded Expr.Bounds.not_yields_tooDeep
    | succ depth => exact expression_sound (Nat.zero_lt_succ depth) _ yielded
  · rintro ⟨whole, low⟩
    obtain ⟨behind, same, yielded⟩ :=
      whole.read (b := ⟨maxDepth, finishOf tokens⟩) rfl low
    rw [← eq_nil_of_reading same]
    exact yielded

/-- What is derived at all is answered under every limit that is great enough. -/
theorem Derives.ofTokens_eq_ok {tokens : List Token} {e : Expr} (h : Derives (ahead tokens) e) :
    ∃ enough, ∀ maxDepth, enough ≤ maxDepth → ofTokens maxDepth tokens = .ok e := by
  obtain ⟨depth, whole⟩ := h
  refine ⟨max depth e.height, fun maxDepth le => ofTokens_eq_ok_iff.2 ⟨?_, ?_⟩⟩
  · exact whole.mono (Nat.le_trans (Nat.le_max_left _ _) le)
  · exact Nat.le_trans (Nat.le_max_right _ _) le

/-- Some tokens spell at most one tree. -/
theorem Derives.unique (tokens : List Token) {e e' : Expr} (first : Derives (ahead tokens) e)
    (second : Derives (ahead tokens) e') : e = e' := by
  obtain ⟨enough, answered⟩ := first.ofTokens_eq_ok
  obtain ⟨enough', answered'⟩ := second.ofTokens_eq_ok
  have one := answered (max enough enough') (Nat.le_max_left _ _)
  have other := answered' (max enough enough') (Nat.le_max_right _ _)
  rw [one] at other
  exact Except.ok.inj other

/-- A tree that is parsed has no more levels than the limit allows. -/
theorem height_le_of_parse {maxDepth : Nat} {text : String} {e : Expr}
    (h : Expr.parse maxDepth text = .ok e) : e.height ≤ maxDepth := by
  unfold Expr.parse at h
  split at h
  · cases h
  · exact (ofTokens_eq_ok_iff.1 h).2

/-- What is parsed under one limit is parsed under every greater one. -/
theorem parse_eq_ok_of_le {low high : Nat} {text : String} {e : Expr}
    (h : Expr.parse low text = .ok e) (le : low ≤ high) : Expr.parse high text = .ok e := by
  unfold Expr.parse at h ⊢
  split at h
  · cases h
  · next tokens isCut =>
    obtain ⟨whole, small⟩ := ofTokens_eq_ok_iff.1 h
    exact ofTokens_eq_ok_iff.2 ⟨whole.mono le, Nat.le_trans small le⟩

/-- Under a limit above the number of tokens, those understood included, no text is stopped. -/
theorem ofTokens_ne_depthExceeded {maxDepth : Nat} {tokens : List Token}
    (short : weight (ahead tokens) < maxDepth) (limit : Nat) :
    ofTokens maxDepth tokens ≠ .error (.depthExceeded limit) := by
  obtain ⟨depth, rfl⟩ : ∃ depth, maxDepth = depth + 1 := ⟨maxDepth - 1, by omega⟩
  have free := expression_runsFree (b := ⟨depth + 1, finishOf tokens⟩) (Nat.lt_succ_self depth)
    (Nat.le_of_lt_succ short)
  intro stopped
  unfold ofTokens Cursor.expression Cursor.ofTokens Cursor.expectEnd at stopped
  cases read : expression ⟨depth + 1, finishOf tokens⟩ (depth + 1) (ahead tokens) with
  | stuck fault rest =>
    rw [show tokens.takeWhile (fun t => !t.isFinish) = ahead tokens from rfl, read] at stopped
    simp only [Step.outcome, Except.error.injEq] at stopped
    exact free ⟨limit, rest, by rw [read, stopped]⟩
  | done value rest lighter =>
    rw [show tokens.takeWhile (fun t => !t.isFinish) = ahead tokens from rfl, read] at stopped
    cases rest <;> simp [Step.outcome] at stopped

/-- A text that the limit does not stop is answered with a tree exactly if the tree is derived. -/
theorem ofTokens_eq_ok_iff_of_unreached {maxDepth : Nat} {tokens : List Token} {e : Expr}
    (unreached : ∀ limit, ofTokens maxDepth tokens ≠ .error (.depthExceeded limit)) :
    ofTokens maxDepth tokens = .ok e ↔ Derives (ahead tokens) e := by
  constructor
  · intro answered
    exact ⟨maxDepth, (ofTokens_eq_ok_iff.1 answered).1⟩
  · intro derived
    obtain ⟨enough, answered⟩ := derived.ofTokens_eq_ok
    have same := Expr.ofTokens_eq_of_le (Nat.le_max_left maxDepth enough) unreached
    rw [← same]
    exact answered _ (Nat.le_max_right _ _)

/-- In front of a single end token, all tokens are ahead. -/
theorem ahead_append_finish {init : List Token} {last : Token}
    (inner : ∀ t ∈ init, t.kind ≠ .finish) (ends : last.kind = .finish) :
    ahead (init ++ [last]) = init := by
  have kept : ∀ t ∈ init, (!t.isFinish) = true := by
    intro t mem
    rw [Token.isFinish, Bool.not_eq_true', beq_eq_false_iff_ne]
    exact inner t mem
  have stopped : ¬(!last.isFinish) = true := by
    rw [Token.isFinish, ends]
    decide
  rw [ahead, List.takeWhile_append_of_pos kept]
  rw [List.takeWhile_cons_of_neg (p := fun t : Token => !t.isFinish) stopped, List.append_nil]

/-- The parser accepts exactly its grammar. In front of a single end token, and unless the limit on
nesting stops it, it answers with a tree if and only if all the tokens spell that tree; a limit
above their number never stops it. They spell at most one tree, and if they spell none they are
refused under every limit. -/
theorem accepts_exactly_grammar {init : List Token} {last : Token}
    (inner : ∀ t ∈ init, t.kind ≠ .finish) (ends : last.kind = .finish) :
    (∀ maxDepth, (∀ limit, ofTokens maxDepth (init ++ [last]) ≠ .error (.depthExceeded limit)) →
        ∀ e, ofTokens maxDepth (init ++ [last]) = .ok e ↔ Derives init e) ∧
      (∀ maxDepth, weight init < maxDepth →
        ∀ limit, ofTokens maxDepth (init ++ [last]) ≠ .error (.depthExceeded limit)) ∧
      (∀ e e', Derives init e → Derives init e' → e = e') ∧
      ((∀ e, ¬Derives init e) →
        ∀ maxDepth, ∃ fault, ofTokens maxDepth (init ++ [last]) = .error fault) := by
  have all := ahead_append_finish inner ends
  refine ⟨fun maxDepth unreached e => ?_, fun maxDepth short limit => ?_,
    fun e e' first second => ?_, fun none maxDepth => ?_⟩
  · have exactly := ofTokens_eq_ok_iff_of_unreached (e := e) unreached
    rw [all] at exactly
    exact exactly
  · exact ofTokens_ne_depthExceeded (all.symm ▸ short) limit
  · exact Derives.unique (init ++ [last]) (all.symm ▸ first) (all.symm ▸ second)
  · cases answer : ofTokens maxDepth (init ++ [last]) with
    | error fault => exact ⟨fault, rfl⟩
    | ok e => exact absurd ⟨maxDepth, all ▸ (ofTokens_eq_ok_iff.1 answer).1⟩ (none e)

/-- A number in front of a name is read as a product, under every limit from four on. -/
theorem accepts_implied_product :
    let tokens : List Token := [⟨.number .two, "2", 0⟩, ⟨.name "x", "x", 1⟩]
    (∀ t ∈ tokens, t.kind ≠ .finish) ∧ (finishAt 2).kind = .finish ∧
      ∀ maxDepth, 3 < maxDepth →
        (∀ limit, ofTokens maxDepth (tokens ++ [finishAt 2]) ≠ .error (.depthExceeded limit)) ∧
          ofTokens maxDepth (tokens ++ [finishAt 2]) =
            .ok (.binary .multiply (.number .two) (.plain "x")) := by
  intro tokens
  have inner : ∀ t ∈ tokens, t.kind ≠ .finish := by decide
  have product : Phrase 0 3 (reading tokens) (.binary .multiply (.number .two) (.plain "x"))
      [] := by
    refine .joined rfl (.tighter (by omega) (.tighter (by omega) .number)) ?_
    exact .tighter (by omega) (.name nofun)
  have whole : Whole 1 (reading tokens) (.binary .multiply (.number .two) (.plain "x")) [] :=
    .intro (.tighter (by omega) (.tighter (by omega) product)) rfl
  have ends : (finishAt 2).kind = .finish := rfl
  obtain ⟨exactly, free, _⟩ := accepts_exactly_grammar inner ends
  refine ⟨inner, ends, fun maxDepth deep => ⟨free maxDepth deep, ?_⟩⟩
  exact (exactly maxDepth (free maxDepth deep) _).2 ⟨1, whole⟩

end Reckon.Grammar
