import Reckon.Expr.Basic
import Reckon.Token.Stream

/-!
# The grammar of expressions

Which stretches of tokens spell which trees, said without a parser. Operators associate to the left
on four levels, a sign binds more tightly than all of them, and a `*` stands between a number and a
name directly behind it. A name in front of a parenthesis begins a definition if an equals sign
stands behind the matching parenthesis, and a call otherwise. Every relation reads a tree from the
front of a list of kinds and leaves the rest of it; `depth` bounds how deep signs and expressions
nest, and nothing else is bounded.
-/

namespace Reckon

/-- The operator symbol with which a prefix sign is written. -/
def Sign.operator : Sign → Operator
  | .positive => .add
  | .negative => .subtract

namespace Grammar

open Token

/-- The kinds of some tokens, with the `*` that is understood between a number and a name. -/
def reading : List Token → List Kind
  | [] => []
  | t :: rest =>
    if t.isNumber && startsWithName rest then t.kind :: .operator .multiply :: reading rest
    else t.kind :: reading rest

/-- Only a number can have more than itself read in its place. -/
theorem reading_cons {t : Token} (h : t.isNumber = false) (rest : List Token) :
    reading (t :: rest) = t.kind :: reading rest := by
  rw [reading, h, Bool.false_and, if_neg Bool.false_ne_true]

/-- Behind a number stands the `*` that is put there when the number is taken. -/
theorem reading_number {t : Token} (h : t.isNumber = true) (rest : List Token) :
    reading (t :: rest) = t.kind :: reading (withImpliedTimes rest) := by
  cases rest with
  | nil => simp only [reading, startsWithName, withImpliedTimes, Bool.and_false, if_neg,
      Bool.false_eq_true, not_false_eq_true]
  | cons u us =>
    by_cases named : u.isName = true
    · have implied : reading (impliedTimes u.position :: u :: us) =
          .operator .multiply :: reading (u :: us) := reading_cons rfl _
      rw [reading, h, startsWithName, named, withImpliedTimes, if_pos named, implied]
      rfl
    · rw [withImpliedTimes, if_neg named, reading, h, startsWithName,
        eq_false_of_ne_true named]
      rfl

/-- What is read first is the kind of the first token. -/
theorem head?_reading (tokens : List Token) :
    (reading tokens).head? = tokens.head?.map Token.kind := by
  cases tokens with
  | nil => rfl
  | cons t rest =>
    unfold reading
    split <;> rfl

/-- Tokens start with a name exactly when their reading does. -/
theorem startsWithName_iff {tokens : List Token} :
    startsWithName tokens = true ↔ ∃ name, (reading tokens).head? = some (.name name) := by
  rw [head?_reading]
  cases tokens with
  | nil => exact ⟨nofun, nofun⟩
  | cons t rest =>
    rw [startsWithName, Token.isName, List.head?_cons, Option.map_some]
    cases t.kind <;> simp

/-- A token of another kind is no number. -/
theorem isNumber_eq_false {t : Token} (h : ∀ value, t.kind ≠ .number value) :
    t.isNumber = false := by
  unfold Token.isNumber
  split
  · next value same => exact absurd same (h value)
  · rfl

/-- A token of the kind of a number is one. -/
theorem isNumber_eq_true {t : Token} {value : Decimal} (h : t.kind = .number value) :
    t.isNumber = true := by
  rw [Token.isNumber, h]

/-- A token that is no number is read as its kind. -/
theorem reading_of_kind {t : Token} {k : Kind} (same : t.kind = k)
    (other : ∀ value, k ≠ .number value) (rest : List Token) :
    reading (t :: rest) = k :: reading rest := by
  rw [reading_cons (isNumber_eq_false (same ▸ other)), same]

/-- Nothing is read only where nothing stands. -/
theorem eq_nil_of_reading {tokens : List Token} (h : reading tokens = []) : tokens = [] := by
  have first := head?_reading tokens
  rw [h] at first
  cases tokens with
  | nil => rfl
  | cons t rest => cases first

/-- Anything but a number that is read stands there as a token. -/
theorem exists_of_reading {tokens : List Token} {k : Kind} {ks : List Kind}
    (h : reading tokens = k :: ks) (other : ∀ value, k ≠ .number value) :
    ∃ t rest, tokens = t :: rest ∧ t.kind = k ∧ reading rest = ks := by
  cases tokens with
  | nil => cases h
  | cons t rest =>
    have first := head?_reading (t :: rest)
    rw [h] at first
    have same : t.kind = k := (Option.some.inj first).symm
    rw [reading_cons (isNumber_eq_false (same ▸ other))] at h
    exact ⟨t, rest, rfl, same, (List.cons.inj h).2⟩

/-- A number that is read stands there as a token, with the rest taken behind it. -/
theorem exists_of_reading_number {tokens : List Token} {value : Decimal} {ks : List Kind}
    (h : reading tokens = .number value :: ks) :
    ∃ t rest, tokens = t :: rest ∧ t.kind = .number value ∧
      reading (withImpliedTimes rest) = ks := by
  cases tokens with
  | nil => cases h
  | cons t rest =>
    have first := head?_reading (t :: rest)
    rw [h] at first
    have same : t.kind = .number value := (Option.some.inj first).symm
    rw [reading_number (isNumber_eq_true same)] at h
    exact ⟨t, rest, rfl, same, (List.cons.inj h).2⟩

/-- The reading is as long as the stream is heavy. -/
theorem length_reading (tokens : List Token) : (reading tokens).length = weight tokens := by
  induction tokens with
  | nil => rfl
  | cons t rest ih =>
    unfold reading weight
    split <;> simp [ih]

/-- Names with commas between them. -/
def nameList : List String → List Kind
  | [] => []
  | [name] => [.name name]
  | name :: names => .name name :: .comma :: nameList names

/-- Whether an operator is next. -/
def startsWithOperator : List Kind → Bool
  | .operator _ :: _ => true
  | _ => false

mutual

/-- A tree whose operators have at least the given precedence. On level 5 stand the operands: what
carries a sign, and the primaries. -/
inductive Phrase : (depth level : Nat) → List Kind → Expr → List Kind → Prop
  /-- What binds more tightly may stand wherever a looser phrase may. -/
  | tighter {depth level : Nat} {ks rest : List Kind} {e : Expr} :
      level < 5 → Phrase depth (level + 1) ks e rest → Phrase depth level ks e rest
  /-- An operator takes a phrase of its own level on its left and a tighter one on its right. -/
  | joined {depth level : Nat} {ks mid rest : List Kind} {op : Operator} {left right : Expr} :
      op.precedence = level → Phrase depth level ks left (.operator op :: mid) →
      Phrase depth (level + 1) mid right rest →
      Phrase depth level ks (.binary op left right) rest
  /-- A sign stands in front of an operand. -/
  | signed {depth : Nat} {ks rest : List Kind} {sign : Sign} {e : Expr} :
      Phrase depth 5 ks e rest →
      Phrase (depth + 1) 5 (.operator sign.operator :: ks) (.signed sign e) rest
  /-- A number is an operand. -/
  | number {depth : Nat} {value : Decimal} {rest : List Kind} :
      Phrase depth 5 (.number value :: rest) (.number value) rest
  /-- A name is a variable if no parenthesis follows it. -/
  | name {depth : Nat} {name : String} {rest : List Kind} :
      rest.head? ≠ some .leftParen →
      Phrase depth 5 (.name name :: rest) (.plain name) rest
  /-- An expression in parentheses is an operand. -/
  | parenthesized {depth : Nat} {ks rest : List Kind} {e : Expr} :
      Whole depth ks e (.rightParen :: rest) → Phrase depth 5 (.leftParen :: ks) e rest
  /-- A definition has its equals sign right behind the closing parenthesis. -/
  | definition {depth : Nat} {ks rest : List Kind} {name : String} {params : List String}
      {body : Expr} :
      Whole depth ks body rest →
      Phrase depth 5
        (.name name :: .leftParen ::
          (nameList params ++ .rightParen :: .operator .assign :: ks))
        (.definition name params body) rest
  /-- A call has no equals sign right behind the closing parenthesis. -/
  | call {depth : Nat} {ks rest : List Kind} {name : String} {args : List Expr} :
      Arguments depth ks args rest → rest.head? ≠ some (.operator .assign) →
      Phrase depth 5 (.name name :: .leftParen :: ks) (.call name args) rest
  /-- A matrix takes all vectors that follow one another, at least one. -/
  | matrix {depth : Nat} {ks rest : List Kind} {column : Expr} {columns : List Expr} :
      Columns depth ks (column :: columns) rest → rest.head? ≠ some .leftBracket →
      Phrase depth 5 ks (.matrix (column :: columns)) rest

/-- An expression: a phrase of any operators that no operator follows, so that it is maximal. -/
inductive Whole : (depth : Nat) → List Kind → Expr → List Kind → Prop
  | intro {depth : Nat} {ks rest : List Kind} {e : Expr} :
      Phrase depth 1 ks e rest → startsWithOperator rest = false → Whole (depth + 1) ks e rest

/-- The arguments of a call with commas between them, possibly none, and the closing
parenthesis. -/
inductive Arguments : (depth : Nat) → List Kind → List Expr → List Kind → Prop
  | none {depth : Nat} {rest : List Kind} : Arguments depth (.rightParen :: rest) [] rest
  | last {depth : Nat} {ks rest : List Kind} {arg : Expr} :
      Whole depth ks arg (.rightParen :: rest) → Arguments depth ks [arg] rest
  | more {depth : Nat} {ks mid rest : List Kind} {arg next : Expr} {args : List Expr} :
      Whole depth ks arg (.comma :: mid) → Arguments depth mid (next :: args) rest →
      Arguments depth ks (arg :: next :: args) rest

/-- The elements of a vector, each with an optional comma behind it, and the closing bracket. -/
inductive Elements : (depth : Nat) → List Kind → List Expr → List Kind → Prop
  | none {depth : Nat} {rest : List Kind} : Elements depth (.rightBracket :: rest) [] rest
  | plain {depth : Nat} {ks mid rest : List Kind} {item : Expr} {items : List Expr} :
      Whole depth ks item mid → Elements depth mid items rest →
      Elements depth ks (item :: items) rest
  | comma {depth : Nat} {ks mid rest : List Kind} {item : Expr} {items : List Expr} :
      Whole depth ks item (.comma :: mid) → Elements depth mid items rest →
      Elements depth ks (item :: items) rest

/-- Vectors that follow one another. -/
inductive Columns : (depth : Nat) → List Kind → List Expr → List Kind → Prop
  | none {depth : Nat} {rest : List Kind} : Columns depth rest [] rest
  | more {depth : Nat} {ks mid rest : List Kind} {items columns : List Expr} :
      Elements depth ks items mid → Columns depth mid columns rest →
      Columns depth (.leftBracket :: ks) (.vector items :: columns) rest

end

/-- The tree that some tokens spell from the first to the last one, nested as deep as it may be. -/
def Derives (tokens : List Token) (e : Expr) : Prop :=
  ∃ depth, Whole depth (reading tokens) e []

end Grammar

end Reckon
