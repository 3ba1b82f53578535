import Reckon.Text.Alphanumeric

/-!
# Atoms of symbolic text

Text is an atom if a minus sign in front of it covers all of it: a word of alphanumeric characters,
underscores and points, such a word with one parenthesized group behind it, or one parenthesized
group.
-/

namespace Reckon.Text

/-- Whether a character belongs to a word. -/
def isWordPart (c : Char) : Bool :=
  isAlphanumeric c || c == '_' || c == '.'

/-- Whether the parenthesis that closes the outermost open one is the last character, with `depth`
parentheses open. -/
def closesAtEnd (depth : Nat) : List Char → Bool
  | [] => false
  | '(' :: rest => closesAtEnd (depth + 1) rest
  | ')' :: rest => if depth ≤ 1 then rest.isEmpty else closesAtEnd (depth - 1) rest
  | _ :: rest => closesAtEnd depth rest

/-- Whether text is one parenthesized group. -/
def isGroup : List Char → Bool
  | '(' :: rest => closesAtEnd 1 rest
  | _ => false

/-- Whether text is an atom. -/
def isAtom (text : List Char) : Bool :=
  let rest := text.dropWhile isWordPart
  if rest.length = text.length then isGroup text else rest.isEmpty || isGroup rest

end Reckon.Text
