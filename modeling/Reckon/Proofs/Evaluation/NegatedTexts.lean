import Reckon.Proofs.Decimal.Exact
import Reckon.Proofs.Evaluation.Levels
import Reckon.Proofs.Evaluation.Steps
import Reckon.Proofs.Syntax.Concatenation
import Reckon.Proofs.Token.Atoms

/-!
# Negated texts

A text that is negated as text gets a minus sign, and parentheses unless the sign covers it without
them. The sign is read with the operand behind it, which is the whole text, or the number in front
of a name, where a `*` is understood. Either way the new text has the value of the old one with the
other sign.
-/

namespace Reckon

namespace Grammar

open Token (Kind Spells AtomKinds EndsAtom)

/-! ## What the sign is read with -/

/-- Every operand that is read from the front leaves the same rest. -/
def OperandLeaves (ks mid : List Kind) : Prop :=
  ∀ ⦃depth : Nat⦄ ⦃e : Expr⦄ ⦃rest : List Kind⦄, Phrase depth 5 ks e rest → rest = mid

/-- An operand at the front is one up to the only place where it can end. -/
theorem OperandLeaves.operand {ks mid rest : List Kind} {depth : Nat} {e : Expr}
    (only : OperandLeaves ks mid) (h : Phrase depth 5 ks e rest) :
    Phrase depth 5 ks e mid ∧ rest = mid := by
  obtain rfl := only h
  exact ⟨h, rfl⟩

/-- Where no operator stands behind the operand, every phrase is the operand. -/
theorem Phrase.operand_of_leaves {mid : List Kind} (noOperator : startsWithOperator mid = false) :
    ∀ {depth level : Nat} {ks rest : List Kind} {e : Expr}, Phrase depth level ks e rest →
      OperandLeaves ks mid → Phrase depth 5 ks e mid ∧ rest = mid
  | _, _, _, _, _, .tighter _ phrase, only => phrase.operand_of_leaves noOperator only
  | _, _, _, _, _, .joined _ left _, only => by
    have same := (left.operand_of_leaves noOperator only).2
    rw [← same] at noOperator
    cases noOperator
  | _, _, _, _, _, .signed phrase, only => only.operand (.signed phrase)
  | _, _, _, _, _, .number, only => only.operand .number
  | _, _, _, _, _, .name noParen, only => only.operand (.name noParen)
  | _, _, _, _, _, .parenthesized whole, only => only.operand (.parenthesized whole)
  | _, _, _, _, _, .definition body, only => only.operand (.definition body)
  | _, _, _, _, _, .call args noEquals, only => only.operand (.call args noEquals)
  | _, _, _, _, _, .matrix columns noBracket, only => only.operand (.matrix columns noBracket)

/-- Of a number, a `*` and an operand, a phrase takes the number alone or the product. -/
theorem Phrase.product_of_leaves {value : Decimal} {factor : List Kind}
    (only : OperandLeaves factor []) : ∀ {depth level : Nat} {ks rest : List Kind} {e : Expr},
      Phrase depth level ks e rest → ks = .number value :: .operator .multiply :: factor →
        (e = .number value ∧ rest = .operator .multiply :: factor) ∨
          ∃ p, e = .binary .multiply (.number value) p ∧ rest = [] ∧ Phrase depth 5 factor p []
  | _, _, _, _, _, .tighter _ phrase, same => phrase.product_of_leaves only same
  | _, _, _, _, _, .joined _ left right, same => by
    rcases left.product_of_leaves only same with ⟨rfl, behind⟩ | ⟨_, _, none, _⟩
    · cases behind
      obtain ⟨operand, none⟩ := right.operand_of_leaves rfl only
      exact .inr ⟨_, rfl, none, operand⟩
    · cases none
  | _, _, _, _, _, .number, same => by
    cases same
    exact .inl ⟨rfl, rfl⟩
  | _, _, _, _, _, .matrix columns _, same => by
    cases same
    cases columns

section

variable {ks : List Kind}

/-- What ends an atom of text starts with no operator. -/
theorem not_startsWithOperator_of_endsAtom (ends : EndsAtom ks) :
    startsWithOperator ks = false := by
  cases ends <;> rfl

/-- A group that closes the text is the whole operand. -/
theorem operandLeaves_group (closed : closing 0 ks = some []) :
    OperandLeaves (.leftParen :: ks) [] := by
  intro depth e rest h
  cases h with
  | tighter low _ => exact absurd low (Nat.lt_irrefl 5)
  | @joined _ _ _ _ _ op _ _ same _ _ =>
    have bounds := op.precedence_bounds
    omega
  | parenthesized whole =>
    have counted := whole.balanced 0
    rw [closed, closing] at counted
    exact (Option.some.inj counted).symm
  | matrix columns _ => cases columns

/-- A name is the whole operand with what ends the text behind it. -/
theorem operandLeaves_name {text : String} (ends : EndsAtom ks) :
    OperandLeaves (.name text :: ks) [] := by
  intro depth e rest h
  cases h with
  | tighter low _ => exact absurd low (Nat.lt_irrefl 5)
  | @joined _ _ _ _ _ op _ _ same _ _ =>
    have bounds := op.precedence_bounds
    omega
  | name noParen =>
    cases ends with
    | none => rfl
    | group _ => exact absurd rfl noParen
  | @definition _ body _ _ params _ _ =>
    cases ends with
    | group closed =>
      rw [closing_nameList, closing] at closed
      cases closed
  | call args _ =>
    cases ends with
    | group closed => exact Option.some.inj (args.balanced.1.symm.trans closed)
  | matrix columns _ => cases columns

/-- A number is the whole operand by itself. -/
theorem operandLeaves_number (value : Decimal) : OperandLeaves (.number value :: ks) ks := by
  intro depth e rest h
  cases h with
  | tighter low _ => exact absurd low (Nat.lt_irrefl 5)
  | @joined _ _ _ _ _ op _ _ same _ _ =>
    have bounds := op.precedence_bounds
    omega
  | number => rfl
  | matrix columns _ => cases columns

/-- An atom of text is one operand, or a number and an operand with a `*` between them. -/
theorem Phrase.cases_of_atomKinds {depth level : Nat} {e : Expr} (h : Phrase depth level ks e [])
    (atom : AtomKinds ks) : Phrase depth 5 ks e [] ∨
      ∃ value factor p, ks = .number value :: .operator .multiply :: factor ∧
        e = .binary .multiply (.number value) p ∧ Phrase depth 5 factor p [] := by
  cases atom with
  | group closed => exact .inl (h.operand_of_leaves rfl (operandLeaves_group closed)).1
  | name ends => exact .inl (h.operand_of_leaves rfl (operandLeaves_name ends)).1
  | number ends =>
    obtain ⟨operand, none⟩ := h.operand_of_leaves (not_startsWithOperator_of_endsAtom ends)
      (operandLeaves_number _)
    subst none
    exact .inl operand
  | scaled ends =>
    rcases h.product_of_leaves (operandLeaves_name ends) rfl with ⟨_, none⟩ | ⟨p, rfl, _, operand⟩
    · cases none
    · exact .inr ⟨_, _, p, rfl, rfl, operand⟩

end

/-! ## What is read behind the sign -/

/-- The second tree is what is read instead of the first one behind a minus sign, or behind a minus
sign and in parentheses. -/
inductive Negates : Expr → Expr → Prop where
  | operand (e : Expr) : Negates e (.signed .negative e)
  | factor (value : Decimal) (p : Expr) : Negates (.binary .multiply (.number value) p)
      (.binary .multiply (.signed .negative (.number value)) p)

section

variable {limit : Nat} {text : String} {e : Expr}

/-- A minus sign in front of the text of an operand negates it. -/
theorem parse_minus_of_operand {depth : Nat} {ks : List Kind} (spells : Spells text.toList ks)
    (operand : Phrase depth 5 ks e []) (low : e.height ≤ depth + 1) :
    Expr.parse (depth + 2) ("-" ++ text) = .ok (.signed .negative e) := by
  have behind := @Phrase.signed depth ks [] .negative e operand
  refine parse_eq_ok_iff.2 ⟨_, ?_, .intro (behind.loosen (by decide) (Nat.le_refl 5)) rfl, ?_⟩
  · rw [String.toList_append]
    exact spells.minus
  · rw [Expr.height]
    omega

/-- A text in parentheses is one operand. -/
theorem exists_operand_of_parse (accepted : Expr.parse limit text = .ok e) :
    ∃ ks, Spells ("(" ++ text ++ ")").toList ks ∧ Phrase limit 5 ks e [] ∧ e.height ≤ limit := by
  obtain ⟨ks, spells, whole, low⟩ := parse_eq_ok_iff.1 accepted
  have closing : Spells [')'] [.rightParen] := Token.spells_nil.rightParen
  have group := (spells.append closing (Token.endsWord_gap _ (by decide) (by decide) (by decide))
    fun _ => nofun).leftParen
  refine ⟨_, ?_, .parenthesized (whole.append fun _ => ⟨endsOperand_rightParen _, rfl⟩), low⟩
  rw [String.toList_append, String.toList_append, List.append_assoc]
  exact group

/-- The sign in front of an atom is accepted one level further in. -/
theorem exists_parse_minus (accepted : Expr.parse limit text = .ok e)
    (atom : Text.isAtom text.toList = true) :
    ∃ e', Negates e e' ∧ Expr.parse (limit + 1) ("-" ++ text) = .ok e' := by
  obtain ⟨ks, spells, ⟨@⟨depth, _, _, _, phrase, -⟩, low⟩⟩ := parse_eq_ok_iff.1 accepted
  rcases phrase.cases_of_atomKinds (spells.atomKinds atom) with
    operand | ⟨value, factor, p, rfl, rfl, operand⟩
  · exact ⟨_, .operand e, parse_minus_of_operand spells operand low⟩
  · refine ⟨_, .factor value p, parse_eq_ok_iff.2 ⟨_, ?_, .intro (.loosen (.joined rfl
      (.loosen (@Phrase.signed depth _ _ .negative _ .number) (by decide) (Nat.le_refl 5))
      (.loosen (operand.mono (Nat.le_succ depth)) (by decide) (Nat.le_refl 5))) (by decide)
      (by decide)) rfl, ?_⟩⟩
    · rw [String.toList_append]
      exact spells.minus
    · rw [Expr.height, Expr.height] at low
      rw [Expr.height, Expr.height, Expr.height]
      omega

/-- The negated text of an accepted one is accepted two levels further in. -/
theorem exists_parse_negated (accepted : Expr.parse limit text = .ok e) :
    ∃ negated e', (Value.symbolic text).negate = .symbolic negated ∧ Negates e e' ∧
      ∀ deeper, limit + 2 ≤ deeper → Expr.parse deeper negated = .ok e' := by
  rw [Value.negate]
  split
  · next atom =>
    obtain ⟨e', negates, parsed⟩ := exists_parse_minus accepted atom
    exact ⟨_, e', rfl, negates, fun deeper le => parse_eq_ok_of_le parsed (by omega)⟩
  · obtain ⟨ks, spells, operand, low⟩ := exists_operand_of_parse accepted
    have parsed := parse_minus_of_operand spells operand (Nat.le_succ_of_le low)
    refine ⟨_, _, rfl, .operand e, fun deeper le => ?_⟩
    have same : "-(" ++ text ++ ")" = "-" ++ ("(" ++ text ++ ")") := by
      rw [show "-(" = "-" ++ "(" from rfl]
      simp only [String.append_assoc]
    rw [same]
    exact parse_eq_ok_of_le parsed le

end

end Grammar

namespace Expr

open Grammar (Negates)

/-! ## Its value -/

variable {settings : Settings} {s : Scope} {levels : Nat} {e e' : Expr} {w : Decimal}

/-- One level further in, the tree has the value with the other sign. -/
theorem exists_value_of_negates (h : Negates e e')
    (value : e.evalWithin settings levels s = .ok (.number w)) :
    ∃ w', e'.evalWithin settings (levels + 1) s = .ok (.number w') ∧ w'.toRat = -w.toRat := by
  cases h with
  | operand => exact ⟨w.neg, evalWithin_signed_eq_ok.2 ⟨_, value, rfl⟩, Decimal.toRat_neg w⟩
  | factor v p =>
    obtain ⟨below, rfl⟩ : ∃ below, levels = below + 1 := by
      cases levels with
      | zero => exact absurd value evalWithin_zero_ne_ok
      | succ below => exact ⟨below, rfl⟩
    obtain ⟨l, r, left, right, combined⟩ := evalWithin_binary_eq_ok.1 value
    obtain ⟨lower, rfl⟩ : ∃ lower, below = lower + 1 := by
      cases below with
      | zero => exact absurd left evalWithin_zero_ne_ok
      | succ lower => exact ⟨lower, rfl⟩
    obtain ⟨v', q, rfl, rfl, multiplied⟩ := Value.combine_eq_number.1 combined
    obtain rfl : v' = v := Value.number.inj (evalWithin_number_eq_ok.1 left)
    have product : v'.mul? q = some w := Decimal.orProblem_eq_ok.1 multiplied
    have negated := Decimal.toRat_neg_mul? v' q
    rw [product, Option.map_some, Option.map_eq_some_iff] at negated
    obtain ⟨w', product', opposite⟩ := negated
    have factor : (Expr.signed .negative (.number v')).evalWithin settings (lower + 2) s =
        .ok (.number v'.neg) :=
      evalWithin_signed_eq_ok.2 ⟨_, evalWithin_number_eq_ok.2 rfl, rfl⟩
    refine ⟨w', evalWithin_binary_eq_ok.2 ⟨_, _, factor,
      evalWithin_of_le rfl (Nat.le_succ _) right, ?_⟩, opposite⟩
    rw [Value.combine_eq_number]
    exact ⟨_, _, rfl, rfl, Decimal.orProblem_eq_ok.2 product'⟩

/-- Negating text negates its value. What stands for an accepted text with the other sign is
accepted under every limit that is two levels greater. In every scope in which the tree of the text
evaluates to a number, the tree of the negated text evaluates to the number with the other sign
under every greater limit, and under the same one it does so or comes to the limit. -/
theorem negated_text_negates_value {limit : Nat} {text : String}
    (accepted : parse limit text = .ok e) :
    ∃ negated e', (Value.symbolic text).negate = .symbolic negated ∧
      (∀ deeper, limit + 2 ≤ deeper → parse deeper negated = .ok e') ∧
      ∀ (settings : Settings) (s : Scope) (w : Decimal), e.eval settings s = .ok (.number w) →
        (∀ deeper, settings.maxDepth < deeper → ∃ w',
          e'.eval (settings.withMaxDepth deeper) s = .ok (.number w') ∧ w'.same w.neg = true) ∧
        ((∃ w', e'.eval settings s = .ok (.number w') ∧ w'.same w.neg = true) ∨
          e'.eval settings s = .error (.depthExceeded settings.maxDepth)) := by
  obtain ⟨negated, e', same, negates, parsed⟩ := Grammar.exists_parse_negated accepted
  refine ⟨negated, e', same, parsed, fun settings s w value => ?_⟩
  obtain ⟨w', opposite, value'⟩ := exists_value_of_negates negates value
  rw [← Decimal.toRat_neg] at value'
  refine ⟨fun deeper more => ⟨w', ?_, Decimal.same_iff.2 value'⟩, ?_⟩
  · have angle : (settings.withMaxDepth deeper).angle = settings.angle := rfl
    exact evalWithin_of_le angle (Nat.succ_le_succ more) opposite
  · rcases matchesUpTo_evalWithin settings (Nat.le_succ (settings.maxDepth + 1)) s e' with
      stopped | again
    · exact .inr stopped
    · rw [opposite, matches_eq_iff] at again
      exact .inl ⟨w', again, Decimal.same_iff.2 value'⟩

/-- A number in front of a call: the minus sign is read with the number. -/
theorem negated_text_negates_value_call :
    let f : UserFunction := ⟨"f", ["t"], .binary .power (.plain "t") (.number .two), "f(t) = t^2"⟩
    let s : Scope := { Scope.root with functions := ⟨[("f", f)]⟩ }
    let three : Decimal := ⟨false, 3, 0, by decide, by decide⟩
    let tree : Expr := .binary .multiply (.number ⟨false, 25, 1, by decide, by decide⟩)
      (.call "f" [.binary .subtract (.plain "x") (.number .one)])
    parse 4 "2.5f(x - 1)" = .ok tree ∧
      (Value.symbolic "2.5f(x - 1)").negate = .symbolic "-2.5f(x - 1)" ∧
      ∃ e' w w', parse 6 "-2.5f(x - 1)" = .ok e' ∧
        tree.eval {} (s.bind "x" (.number three)) = .ok (.number w) ∧
        e'.eval { maxDepth := 1025 } (s.bind "x" (.number three)) = .ok (.number w') ∧
        w'.same w.neg = true := by
  intro f s three tree
  have parsed : parse 4 "2.5f(x - 1)" = .ok tree := by decide +kernel
  have atom : (Value.symbolic "2.5f(x - 1)").negate = .symbolic "-2.5f(x - 1)" := by
    decide +kernel
  have levels : ({} : Settings).maxDepth < 1025 := by decide
  let w : Decimal := ⟨false, 100, 1, by decide, by decide⟩
  have value : tree.eval {} (s.bind "x" (.number three)) = .ok (.number w) := by decide +kernel
  obtain ⟨negated, e', same, accepted, values⟩ := negated_text_negates_value parsed
  obtain rfl : "-2.5f(x - 1)" = negated := Value.symbolic.inj (atom.symm.trans same)
  obtain ⟨w', opposite, value'⟩ := (values {} _ w value).1 1025 levels
  exact ⟨parsed, atom, e', w, w', accepted 6 (by decide), value, opposite, value'⟩

end Expr

end Reckon
