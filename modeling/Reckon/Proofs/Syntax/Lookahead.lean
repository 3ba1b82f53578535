import Reckon.Expr.Parser
import Reckon.Proofs.Syntax.Grammar

/-!
# The matching parenthesis

The parser tells a definition from a call by what stands behind the matching parenthesis, which it
finds by counting. Everything that the grammar reads is balanced, so that counting over it changes
nothing, and what it reads as arguments ends with the matching parenthesis itself.
-/

namespace Reckon.Grammar

open Token
open Reckon.Expr (behindClosing? beginsDefinition)

/-- What is read behind the parenthesis that closes the one just opened, with `inner` more of them
open. -/
def closing (inner : Nat) : List Kind → Option (List Kind)
  | [] => none
  | .leftParen :: ks => closing (inner + 1) ks
  | .rightParen :: ks =>
    match inner with
    | 0 => some ks
    | inner + 1 => closing inner ks
  | _ :: ks => closing inner ks

/-- Counting over tokens is counting over their reading: a `*` that is understood does not count. -/
theorem map_reading_behindClosing? (inner : Nat) (tokens : List Token) :
    (behindClosing? inner tokens).map reading = closing inner (reading tokens) := by
  induction tokens generalizing inner with
  | nil => rfl
  | cons t rest ih =>
    by_cases number : t.isNumber = true
    · have value : ∃ value, t.kind = .number value := by
        unfold isNumber at number
        split at number
        · next value same => exact ⟨value, same⟩
        · cases number
      obtain ⟨value, same⟩ := value
      have skipped : closing inner (reading (t :: rest)) = closing inner (reading rest) := by
        rw [reading, same]
        split <;> rw [closing]
        · rw [closing] <;> (intro same; cases same)
        all_goals (intro same; cases same)
      rw [skipped, ← ih inner]
      conv => lhs; unfold behindClosing?
      simp only [same]
    · rw [reading_cons (eq_false_of_ne_true number)]
      unfold behindClosing?
      split
      · next same => rw [same, closing, ih]
      · next same =>
        rw [same]
        cases inner with
        | zero => rfl
        | succ inner => rw [closing, ih]
      · next left right =>
        rw [ih, closing]
        · exact fun same => left same
        · exact fun same => right same

/-- A list of names does not change where a group closes. -/
theorem closing_nameList (inner : Nat) (names : List String) (ks : List Kind) :
    closing inner (nameList names ++ ks) = closing inner ks := by
  induction names with
  | nil => rfl
  | cons name names ih =>
    cases names with
    | nil => rfl
    | cons next names => exact ih

mutual

/-- A phrase does not change where a group closes. -/
theorem Phrase.balanced : ∀ {depth level : Nat} {ks rest : List Kind} {e : Expr},
    Phrase depth level ks e rest → ∀ inner, closing inner ks = closing inner rest
  | _, _, _, _, _, .tighter _ phrase, inner => phrase.balanced inner
  | _, _, _, _, _, .joined _ left right, inner => by
    rw [left.balanced inner, ← right.balanced inner, closing] <;> exact nofun
  | _, _, _, _, _, .signed phrase, inner => by
    rw [← phrase.balanced inner, closing] <;> exact nofun
  | _, _, _, _, _, .number, inner => by rw [closing] <;> exact nofun
  | _, _, _, _, _, .name _, inner => by rw [closing] <;> exact nofun
  | _, _, _, _, _, .parenthesized whole, inner => by
    rw [closing, whole.balanced (inner + 1), closing]
  | _, _, _, _, _, .definition whole, inner => by
    rw [closing, closing, closing_nameList, closing, closing, whole.balanced inner] <;> exact nofun
  | _, _, _, _, _, .call args _, inner => by
    rw [closing, closing, args.balanced.2 inner] <;> exact nofun
  | _, _, _, _, _, .matrix columns _, inner => columns.balanced inner

/-- An expression does not change where a group closes. -/
theorem Whole.balanced : ∀ {depth : Nat} {ks rest : List Kind} {e : Expr},
    Whole depth ks e rest → ∀ inner, closing inner ks = closing inner rest
  | _, _, _, _, .intro phrase _, inner => phrase.balanced inner

/-- Arguments end with the matching parenthesis. -/
theorem Arguments.balanced : ∀ {depth : Nat} {ks rest : List Kind} {args : List Expr},
    Arguments depth ks args rest →
    closing 0 ks = some rest ∧ ∀ inner, closing (inner + 1) ks = closing inner rest
  | _, _, _, _, .none => ⟨rfl, fun _ => rfl⟩
  | _, _, _, _, .last whole =>
    ⟨by rw [whole.balanced, closing], fun inner => by rw [whole.balanced, closing]⟩
  | _, _, _, _, .more whole args =>
    ⟨by rw [whole.balanced, closing, args.balanced.1] <;> exact nofun,
      fun inner => by rw [whole.balanced, closing, args.balanced.2] <;> exact nofun⟩

/-- Elements do not change where a group closes. -/
theorem Elements.balanced : ∀ {depth : Nat} {ks rest : List Kind} {items : List Expr},
    Elements depth ks items rest → ∀ inner, closing inner ks = closing inner rest
  | _, _, _, _, .none, inner => by rw [closing] <;> exact nofun
  | _, _, _, _, .plain whole items, inner => by rw [whole.balanced inner, items.balanced inner]
  | _, _, _, _, .comma whole items, inner => by
    rw [whole.balanced inner, closing, items.balanced inner] <;> exact nofun

/-- Columns do not change where a group closes. -/
theorem Columns.balanced : ∀ {depth : Nat} {ks rest : List Kind} {columns : List Expr},
    Columns depth ks columns rest → ∀ inner, closing inner ks = closing inner rest
  | _, _, _, _, .none, inner => rfl
  | _, _, _, _, .more items columns, inner => by
    rw [closing, items.balanced inner, columns.balanced inner] <;> exact nofun

end

/-- Behind the arguments of a call stands what the parser's count finds. -/
theorem Arguments.behindClosing? {depth : Nat} {tokens : List Token} {args : List Expr}
    {rest : List Kind} (h : Arguments depth (reading tokens) args rest) :
    ∃ behind, Expr.behindClosing? 0 tokens = some behind ∧ reading behind = rest := by
  have counted := map_reading_behindClosing? 0 tokens
  rw [h.balanced.1] at counted
  exact Option.map_eq_some_iff.1 counted

/-- The parser's question in terms of what is read behind the matching parenthesis. -/
theorem beginsDefinition_iff {tokens behind : List Token}
    (h : Expr.behindClosing? 0 tokens = some behind) :
    beginsDefinition tokens = true ↔ (reading behind).head? = some (.operator .assign) := by
  rw [beginsDefinition, h, head?_reading]
  cases behind with
  | nil => simp
  | cons t rest => simp

end Reckon.Grammar
