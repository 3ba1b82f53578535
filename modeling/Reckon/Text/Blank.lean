import Reckon.Text.Span

/-!
# Blank text

White space in the sense of Unicode: the controls U+0009 to U+000D, the space, U+0085, the no-break
space and the other separators. Text made of white space alone is blank, and trimming removes white
space from both ends. Between tokens only four of these characters may stand; that rule belongs to
the lexer.
-/

namespace Reckon.Text

/-- The white space outside ASCII, in increasing order. -/
def whiteSpans : List Span :=
  [(0x85, 0x85), (0xA0, 0xA0), (0x1680, 0x1680), (0x2000, 0x200A), (0x2028, 0x2029),
   (0x202F, 0x202F), (0x205F, 0x205F), (0x3000, 0x3000)]

/-- Whether a character is white space. -/
def isWhite (c : Char) : Bool :=
  c == ' ' || (9 ≤ c.toNat && c.toNat ≤ 13) || inSpans whiteSpans c.toNat

/-- Whether text holds nothing but white space. -/
def isBlank (text : String) : Bool :=
  text.toList.all isWhite

/-- The text without white space at its ends. -/
def trim (text : String) : String :=
  String.ofList ((text.toList.dropWhile isWhite).reverse.dropWhile isWhite).reverse

end Reckon.Text
