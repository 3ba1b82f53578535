import Reckon.Fault
import Reckon.Text.Letter
import Reckon.Token.Basic

/-!
# Cutting text into tokens

`Token.tokenize` cuts text into the longest words that can stand at each point and skips spaces,
tabs and line ends between them. The first character that starts no word is a fault, and this is
found before any number is read; a number without room for its value is a fault then.
-/

namespace Reckon

namespace Token

open Text

/-- The shape of a word, before its number is read. -/
inductive Shape where
  | number
  | name
  | operator (op : Operator)
  | leftParen
  | rightParen
  | comma
  | leftBracket
  | rightBracket
deriving DecidableEq, Repr

/-- A word of the text, by shape, spelling and byte position. -/
structure Lexeme where
  shape : Shape
  spelling : List Char
  position : Nat
deriving DecidableEq, Repr

/-- The characters that may stand between words. -/
def isGap (c : Char) : Bool :=
  c == ' ' || c == '\t' || c == '\r' || c == '\n'

/-- How many bytes some characters take. -/
def byteLength (cs : List Char) : Nat :=
  cs.foldr (fun c bytes => c.utf8Size + bytes) 0

/-- The digits at the front, with a point and the digits after it if a point follows. -/
def numberFront (cs : List Char) : List Char :=
  match cs.dropWhile Char.isDigit with
  | '.' :: rest => cs.takeWhile Char.isDigit ++ '.' :: rest.takeWhile Char.isDigit
  | _ => cs.takeWhile Char.isDigit

/-- The word of one or two characters at the front. -/
def symbolFront? : List Char → Option (Shape × List Char)
  | '>' :: '=' :: _ => some (.operator .greaterEqual, ['>', '='])
  | '<' :: '=' :: _ => some (.operator .lessEqual, ['<', '='])
  | '=' :: '=' :: _ => some (.operator .equal, ['=', '='])
  | '!' :: '=' :: _ => some (.operator .notEqual, ['!', '='])
  | '+' :: _ => some (.operator .add, ['+'])
  | '-' :: _ => some (.operator .subtract, ['-'])
  | '*' :: _ => some (.operator .multiply, ['*'])
  | '/' :: _ => some (.operator .divide, ['/'])
  | '^' :: _ => some (.operator .power, ['^'])
  | '>' :: _ => some (.operator .greater, ['>'])
  | '<' :: _ => some (.operator .less, ['<'])
  | '=' :: _ => some (.operator .assign, ['='])
  | '(' :: _ => some (.leftParen, ['('])
  | ')' :: _ => some (.rightParen, [')'])
  | ',' :: _ => some (.comma, [','])
  | '[' :: _ => some (.leftBracket, ['['])
  | ']' :: _ => some (.rightBracket, [']'])
  | _ => none

/-- The longest word at the front, by shape and spelling. -/
def wordFront? : List Char → Option (Shape × List Char)
  | [] => none
  | c :: cs =>
    if c.isDigit then some (.number, numberFront (c :: cs))
    else if isLetter c then some (.name, c :: cs.takeWhile isNameTail)
    else symbolFront? (c :: cs)

/-- What is cut off as a symbol is not empty. -/
theorem symbolFront?_ne_nil {cs : List Char} {word : Shape × List Char}
    (h : symbolFront? cs = some word) : word.2 ≠ [] := by
  unfold symbolFront? at h
  split at h <;> cases h <;> simp

/-- What is cut off as a number is not empty. -/
theorem numberFront_ne_nil {c : Char} {cs : List Char} (h : c.isDigit = true) :
    numberFront (c :: cs) ≠ [] := by
  unfold numberFront
  split <;> simp [h]

/-- What is cut off as a word is not empty. -/
theorem wordFront?_ne_nil {cs : List Char} {word : Shape × List Char}
    (h : wordFront? cs = some word) : word.2 ≠ [] := by
  cases cs with
  | nil => cases h
  | cons c cs =>
    simp only [wordFront?] at h
    split at h
    · next digit => cases h; exact numberFront_ne_nil digit
    · split at h
      · cases h; simp
      · exact symbolFront?_ne_nil h

/-- Cuts characters into words, the first one standing at the given byte position. -/
def cut (cs : List Char) (position : Nat) : Except Fault (List Lexeme) :=
  match cs with
  | [] => .ok []
  | c :: rest =>
    if isGap c then cut rest (position + c.utf8Size)
    else
      match _h : wordFront? (c :: rest) with
      | none => .error (.unrecognized (String.singleton c) position)
      | some (shape, spelling) =>
        match cut ((c :: rest).drop spelling.length) (position + byteLength spelling) with
        | .error fault => .error fault
        | .ok words => .ok (⟨shape, spelling, position⟩ :: words)
termination_by cs.length
decreasing_by
  · simp
  · have := List.length_pos_iff.2 (wordFront?_ne_nil _h)
    simp only [List.length_drop, List.length_cons] at this ⊢
    omega

/-- The number that a word of digits spells. A point at its end counts for nothing. -/
def readNumber? (spelling : List Char) : Option Decimal :=
  match spelling.dropWhile Char.isDigit with
  | _ :: fraction => Decimal.ofDigits? false (spelling.takeWhile Char.isDigit) fraction
  | [] => Decimal.ofDigits? false spelling []

/-- The kind of token that a word is. -/
def Lexeme.kind (word : Lexeme) : Except Fault Kind :=
  match word.shape with
  | .number =>
    match readNumber? word.spelling with
    | some value => .ok (.number value)
    | none => .error (.unrecognized (String.ofList word.spelling) word.position)
  | .name => .ok (.name (String.ofList word.spelling))
  | .operator op => .ok (.operator op)
  | .leftParen => .ok .leftParen
  | .rightParen => .ok .rightParen
  | .comma => .ok .comma
  | .leftBracket => .ok .leftBracket
  | .rightBracket => .ok .rightBracket

/-- The tokens of some words. -/
def ofLexemes : List Lexeme → Except Fault (List Token)
  | [] => .ok []
  | word :: words =>
    match word.kind with
    | .error fault => .error fault
    | .ok kind =>
      match ofLexemes words with
      | .error fault => .error fault
      | .ok tokens => .ok (⟨kind, String.ofList word.spelling, word.position⟩ :: tokens)

/-- The tokens of a text, with the end token at its end. -/
def tokenize (text : String) : Except Fault (List Token) :=
  match cut text.toList 0 with
  | .error fault => .error fault
  | .ok words =>
    match ofLexemes words with
    | .error fault => .error fault
    | .ok tokens => .ok (tokens ++ [finishAt (byteLength text.toList)])

end Token

end Reckon
