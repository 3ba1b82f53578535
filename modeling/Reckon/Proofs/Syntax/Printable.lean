import Reckon.Proofs.Syntax.Names
import Reckon.Proofs.Syntax.Parts
import Reckon.Proofs.Syntax.RoundTrip

/-!
# Parsed trees can be printed

What the parser makes of a text can be printed and parsed again, with one exception: the printer
leaves out parentheses around a call, also in front of a single equals sign, where the parser takes
the call for the head of a definition. In all other respects a parsed tree is printable: its numbers
carry no sign, its names can be read and its vectors are the columns of matrices.
-/

namespace Reckon

namespace Expr

/-- Whether a tree has a call printed right in front of its single equals sign. -/
def isCallBeforeAssign : Expr → Bool
  | .binary op left _ => op == .assign && !left.needsParens op false && left.endsWithCall
  | _ => false

end Expr

namespace Token

/-! ## Numbers of tokens -/

/-- Digits make a number without a sign. -/
theorem negative_ofDigits? {whole fraction : List Char} {d : Decimal}
    (h : Decimal.ofDigits? false whole fraction = some d) : d.negative = false := by
  unfold Decimal.ofDigits? at h
  dsimp only at h
  split at h
  · cases h
  · split at h
    · cases h
    · unfold Decimal.ofParts? at h
      split at h
      · cases h
        rfl
      · cases h

/-- A word that is a number has no sign. -/
theorem negative_of_kind {word : Lexeme} {d : Decimal} (h : word.kind = .ok (.number d)) :
    d.negative = false := by
  unfold Lexeme.kind at h
  split at h
  · split at h
    · next value read =>
      cases h
      unfold readNumber? at read
      split at read <;> exact negative_ofDigits? read
    · cases h
  all_goals cases h

/-- The numbers among the tokens of a text carry no sign. -/
theorem negative_of_tokenize {text : String} {tokens : List Token}
    (h : tokenize text = .ok tokens) :
    ∀ t ∈ tokens, ∀ d, t.kind = .number d → d.negative = false := by
  obtain ⟨words, front, -, read, rfl⟩ := exists_of_tokenize h
  intro t mem d number
  rcases List.mem_append.1 mem with mem | mem
  · obtain ⟨word, -, isKind⟩ := exists_word_of_mem read t mem
    exact negative_of_kind (number ▸ isKind)
  · rw [List.mem_singleton.1 mem] at number
    cases number

end Token

namespace Grammar

open Reckon.Expr (hasPart anyHasPart isPrintable arePrintable areColumns isCallBeforeAssign)
open Token (Kind isIdentifier)

/-! ## Printable trees -/

/-- The kinds of tokens are those of a text: names can be read again and numbers carry no sign. -/
structure Written (ks : List Kind) : Prop where
  names : Named ks
  numbers : ∀ d, .number d ∈ ks → d.negative = false

/-- Behind the first token of a text stand tokens of a text. -/
theorem Written.tail {k : Kind} {ks : List Kind} (h : Written (k :: ks)) : Written ks :=
  ⟨h.names.tail, fun d mem => h.numbers d (List.mem_cons_of_mem k mem)⟩

/-- The end of the tokens of a text is again that of a text. -/
theorem Written.right {ks ks' : List Kind} (h : Written (ks ++ ks')) : Written ks' :=
  ⟨h.names.right, fun d mem => h.numbers d (List.mem_append_right ks mem)⟩

/-- A number that is read stands in one of the tokens. -/
theorem number_mem_reading {tokens : List Token} {d : Decimal} (h : .number d ∈ reading tokens) :
    ∃ t ∈ tokens, t.kind = .number d := by
  induction tokens with
  | nil => cases h
  | cons t tokens ih =>
    have inRest : .number d ∈ reading tokens → ∃ u ∈ t :: tokens, u.kind = .number d := fun mem =>
      let ⟨u, inside, same⟩ := ih mem
      ⟨u, List.mem_cons_of_mem t inside, same⟩
    have isFirst : .number d = t.kind → ∃ u ∈ t :: tokens, u.kind = .number d := fun same =>
      ⟨t, List.mem_cons_self, same.symm⟩
    rw [reading] at h
    split at h
    · simp only [List.mem_cons, reduceCtorEq, false_or] at h
      exact h.elim isFirst inRest
    · exact (List.mem_cons.1 h).elim isFirst inRest

/-- Names with commas between them can be read one by one. -/
theorem all_isIdentifier_of_named {params : List String} (h : Named (nameList params)) :
    params.all isIdentifier = true := by
  induction params with
  | nil => rfl
  | cons name params ih =>
    cases params with
    | nil => rw [List.all_cons, h.head, List.all_nil]; rfl
    | cons next params =>
      rw [List.all_cons, h.head, ih h.tail.tail]
      rfl

/-- The names in front of other tokens can be read again. -/
theorem Named.left {ks ks' : List Kind} (h : Named (ks ++ ks')) : Named ks :=
  fun name mem => h name (List.mem_append_left ks' mem)

/-- A tree is printable unless it has a call in front of a single equals sign. -/
def Prints (e : Expr) : Prop :=
  e.hasPart isCallBeforeAssign = false → e.isPrintable = true

/-- All of some trees are printable unless one has a call in front of a single equals sign. -/
def PrintsAll (es : List Expr) : Prop :=
  anyHasPart isCallBeforeAssign es = false → arePrintable es = true

/-- An operation on printable trees is printable. -/
theorem prints_binary {op : Operator} {left right : Expr} (hl : Prints left) (hr : Prints right) :
    Prints (.binary op left right) := by
  intro none
  rw [hasPart, Bool.or_eq_false_iff, Bool.or_eq_false_iff] at none
  obtain ⟨⟨noCall, onLeft⟩, onRight⟩ := none
  rw [isPrintable, hl onLeft, hr onRight, Bool.true_and, Bool.true_and, Bool.not_eq_true']
  exact noCall

/-- A sign in front of a printable tree is printable. -/
theorem prints_signed {sign : Sign} {e : Expr} (h : Prints e) : Prints (.signed sign e) :=
  fun none => h (Bool.or_eq_false_iff.1 none).2

/-- A number without a sign is printable. -/
theorem prints_number {d : Decimal} (h : d.negative = false) : Prints (.number d) := by
  intro _
  have positive : 0 ≤ d.signed := by
    rw [Decimal.signed, h, if_neg Bool.false_ne_true]
    exact Int.natCast_nonneg _
  exact decide_eq_true positive

/-- The variable of an identifier is printable. -/
theorem prints_plain {name : String} (h : isIdentifier name = true) : Prints (.plain name) :=
  fun _ => h

/-- A definition of identifiers with a printable body is printable. -/
theorem prints_definition {name : String} {params : List String} {body : Expr}
    (named : isIdentifier name = true) (all : params.all isIdentifier = true) (h : Prints body) :
    Prints (.definition name params body) := by
  intro none
  rw [isPrintable, named, all, h (Bool.or_eq_false_iff.1 none).2]
  rfl

/-- A call of an identifier with printable arguments is printable. -/
theorem prints_call {name : String} {args : List Expr} (named : isIdentifier name = true)
    (h : PrintsAll args) : Prints (.call name args) := by
  intro none
  rw [isPrintable, named, h (Bool.or_eq_false_iff.1 none).2]
  rfl

/-- A printable tree in front of printable ones leaves them all printable. -/
theorem printsAll_cons {e : Expr} {es : List Expr} (h : Prints e) (hs : PrintsAll es) :
    PrintsAll (e :: es) := by
  intro none
  rw [anyHasPart, Bool.or_eq_false_iff] at none
  rw [arePrintable, h none.1, hs none.2]
  rfl

/-- No trees are printable trees. -/
theorem printsAll_nil : PrintsAll [] := fun _ => rfl

mutual

/-- A tree that is read from a text is printable, and the rest is that of a text. -/
theorem Phrase.prints : ∀ {depth level : Nat} {ks rest : List Kind} {e : Expr},
    Phrase depth level ks e rest → Written ks → Prints e ∧ Written rest
  | _, _, _, _, _, .tighter _ phrase, h => phrase.prints h
  | _, _, _, _, _, .joined _ left right, h =>
    have first := left.prints h
    have second := right.prints first.2.tail
    ⟨prints_binary first.1 second.1, second.2⟩
  | _, _, _, _, _, .signed phrase, h =>
    have operand := phrase.prints h.tail
    ⟨prints_signed operand.1, operand.2⟩
  | _, _, _, _, _, .number, h => ⟨prints_number (h.numbers _ List.mem_cons_self), h.tail⟩
  | _, _, _, _, _, .name _, h => ⟨prints_plain h.names.head, h.tail⟩
  | _, _, _, _, _, .parenthesized whole, h =>
    have inner := whole.prints h.tail
    ⟨inner.1, inner.2.tail⟩
  | _, _, _, _, _, .definition body, h =>
    have params := all_isIdentifier_of_named h.names.tail.tail.left
    have inner := body.prints h.tail.tail.right.tail.tail
    ⟨prints_definition h.names.head params inner.1, inner.2⟩
  | _, _, _, _, _, .call args _, h =>
    have list := args.prints h.tail.tail
    ⟨prints_call h.names.head list.1, list.2⟩
  | _, _, _, _, _, .matrix columns _, h =>
    have list := columns.prints h
    ⟨fun none => list.1 (Bool.or_eq_false_iff.1 none).2, list.2⟩

/-- An expression that is read from a text is printable, and the rest is that of a text. -/
theorem Whole.prints : ∀ {depth : Nat} {ks rest : List Kind} {e : Expr},
    Whole depth ks e rest → Written ks → Prints e ∧ Written rest
  | _, _, _, _, .intro phrase _, h => phrase.prints h

/-- Arguments that are read from a text are printable, and the rest is that of a text. -/
theorem Arguments.prints : ∀ {depth : Nat} {ks rest : List Kind} {args : List Expr},
    Arguments depth ks args rest → Written ks → PrintsAll args ∧ Written rest
  | _, _, _, _, .none, h => ⟨printsAll_nil, h.tail⟩
  | _, _, _, _, .last whole, h =>
    have only := whole.prints h
    ⟨printsAll_cons only.1 printsAll_nil, only.2.tail⟩
  | _, _, _, _, .more whole args, h =>
    have first := whole.prints h
    have others := args.prints first.2.tail
    ⟨printsAll_cons first.1 others.1, others.2⟩

/-- Elements that are read from a text are printable, and the rest is that of a text. -/
theorem Elements.prints : ∀ {depth : Nat} {ks rest : List Kind} {items : List Expr},
    Elements depth ks items rest → Written ks → PrintsAll items ∧ Written rest
  | _, _, _, _, .none, h => ⟨printsAll_nil, h.tail⟩
  | _, _, _, _, .plain whole items, h =>
    have first := whole.prints h
    have others := items.prints first.2
    ⟨printsAll_cons first.1 others.1, others.2⟩
  | _, _, _, _, .comma whole items, h =>
    have first := whole.prints h
    have others := items.prints first.2.tail
    ⟨printsAll_cons first.1 others.1, others.2⟩

/-- Columns that are read from a text are the columns of a printable matrix, and the rest is that of
a text. -/
theorem Columns.prints : ∀ {depth : Nat} {ks rest : List Kind} {columns : List Expr},
    Columns depth ks columns rest → Written ks →
      (anyHasPart isCallBeforeAssign columns = false → areColumns columns = true) ∧ Written rest
  | _, _, _, _, .none, h => ⟨fun _ => rfl, h⟩
  | _, _, _, _, .more items columns, h => by
    have first := items.prints h.tail
    have others := columns.prints first.2
    refine ⟨fun none => ?_, others.2⟩
    rw [anyHasPart, Bool.or_eq_false_iff] at none
    rw [areColumns, first.1 (Bool.or_eq_false_iff.1 none.1).2, others.1 none.2]
    rfl

end

end Grammar

/-- A parsed tree is printable unless it has a call in front of a single equals sign. -/
theorem Expr.isPrintable_of_parse {maxDepth : Nat} {text : String} {e : Expr}
    (h : Expr.parse maxDepth text = .ok e) (noCall : e.hasPart isCallBeforeAssign = false) :
    e.isPrintable = true := by
  rw [Expr.parse] at h
  split at h
  · cases h
  · next tokens isCut =>
    have whole := (Grammar.ofTokens_eq_ok_iff.1 h).1
    have ahead : ∀ t ∈ Grammar.ahead tokens, t ∈ tokens :=
      fun _ mem => (List.takeWhile_sublist _).subset mem
    have names := Grammar.named_reading fun t mem =>
      Token.isIdentifier_of_tokenize isCut t (ahead t mem)
    have numbers : ∀ d, .number d ∈ Grammar.reading (Grammar.ahead tokens) →
        d.negative = false := by
      intro d mem
      obtain ⟨t, inside, same⟩ := Grammar.number_mem_reading mem
      exact Token.negative_of_tokenize isCut t (ahead t inside) d same
    exact (whole.prints ⟨names, numbers⟩).1 noCall

end Reckon
