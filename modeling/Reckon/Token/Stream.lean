import Reckon.Token.Basic

/-!
# Streams of tokens

What a reader of tokens has ahead of it. A name directly after a number is multiplied by it: when
the number is taken, a `*` is put in front of the name. The weight of a stream counts these tokens
in advance, so that it falls with every token taken.
-/

namespace Reckon.Token

/-- Whether a name is the next token. -/
def startsWithName : List Token → Bool
  | t :: _ => t.isName
  | [] => false

/-- The stream behind a number, with a `*` in front if a name is next. -/
def withImpliedTimes : List Token → List Token
  | t :: rest => if t.isName then impliedTimes t.position :: t :: rest else t :: rest
  | [] => []

/-- The number of tokens in a stream, those to be implied included. -/
def weight : List Token → Nat
  | [] => 0
  | t :: rest => weight rest + if t.isNumber && startsWithName rest then 2 else 1

/-- What is ahead of a reader: the tokens up to the first end token, and where the text ends. -/
structure Cursor where
  /-- The tokens to be read, without the end token. -/
  ahead : List Token
  /-- The position of the end token. -/
  finish : Nat
deriving DecidableEq, Repr

/-- Where some tokens end: at their first end token, or else after the last token. -/
def finishOf (tokens : List Token) : Nat :=
  match tokens.find? isFinish with
  | some t => t.position
  | none =>
    match tokens.getLast? with
    | some t => t.stop
    | none => 0

/-- A cursor in front of some tokens. -/
def Cursor.ofTokens (tokens : List Token) : Cursor :=
  ⟨tokens.takeWhile fun t => !t.isFinish, finishOf tokens⟩

/-- The next token; the end token when nothing is ahead. -/
def next (finish : Nat) : List Token → Token
  | t :: _ => t
  | [] => finishAt finish

/-- A stream is lighter without its first token. -/
theorem weight_lt_cons (t : Token) (rest : List Token) : weight rest < weight (t :: rest) := by
  simp only [weight]
  split <;> omega

/-- Taking a number makes the stream lighter, also when a `*` is implied behind it. -/
theorem weight_withImpliedTimes_lt {t : Token} (h : t.isNumber = true) (rest : List Token) :
    weight (withImpliedTimes rest) < weight (t :: rest) := by
  cases rest with
  | nil => exact weight_lt_cons t []
  | cons u us =>
    by_cases named : u.isName = true
    · have implied : weight (impliedTimes u.position :: u :: us) = weight (u :: us) + 1 := rfl
      have taken : weight (t :: u :: us) = weight (u :: us) + 2 := by
        rw [weight, h, startsWithName, named]
        rfl
      rw [withImpliedTimes, if_pos named, implied, taken]
      omega
    · rw [withImpliedTimes, if_neg named]
      exact weight_lt_cons t (u :: us)

/-- Without a name right behind a number, nothing is implied. -/
theorem withImpliedTimes_eq_self {rest : List Token} (h : startsWithName rest = false) :
    withImpliedTimes rest = rest := by
  cases rest with
  | nil => rfl
  | cons t rest =>
    simp only [startsWithName] at h
    simp [withImpliedTimes, h]

end Reckon.Token
