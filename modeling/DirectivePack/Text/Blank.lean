/-!
Blanks: the ASCII blanks, which may stand between directives and digits, and the wider class of
white space that is cut off at the ends of words.
-/

namespace DirectivePack

/-- A space, tab, line feed, form feed or carriage return. -/
def isBlank (c : Char) : Bool :=
  c == ' ' || c == '\t' || c == '\n' || c == '\x0c' || c == '\r'

/-- White space: the blanks, the vertical tab, the next-line control, and the spaces and separators
outside ASCII. -/
def isWhiteSpace (c : Char) : Bool :=
  let n := c.toNat
  n == 0x20 || (0x09 ≤ n && n ≤ 0x0D) || n == 0x85 || n == 0xA0 || n == 0x1680 ||
    (0x2000 ≤ n && n ≤ 0x200A) || n == 0x2028 || n == 0x2029 || n == 0x202F || n == 0x205F ||
    n == 0x3000

/-- A text without the white space at both ends. -/
def trim (text : List Char) : List Char :=
  ((text.dropWhile isWhiteSpace).reverse.dropWhile isWhiteSpace).reverse

end DirectivePack
