import DirectivePack.Text.Printable

/-!
Characters and texts between quotes, with everything that would not show written as an escape.

A tab, a carriage return, a line feed, a NUL, a backslash and the quote in use have short escapes.
Other characters that do not print, and marks that would join the character before them, are written
by number.
-/

namespace DirectivePack.Quoted

/-- The digits of a number to the base 16, lowercase. -/
def hexDigits (n : Nat) : String :=
  String.ofList (Nat.toDigits 16 n)

/-- The escape of a character inside quotes of the kind `quote`. -/
def escape (quote c : Char) : String :=
  if c = '\x00' then "\\0"
  else if c = '\t' then "\\t"
  else if c = '\r' then "\\r"
  else if c = '\n' then "\\n"
  else if c = '\\' ∨ c = quote then "\\" ++ String.singleton c
  else if isPrintable c && ! extendsGrapheme c then String.singleton c
  else "\\u\x7b" ++ hexDigits c.toNat ++ "\x7d"

/-- A character between single quotes. -/
def char (c : Char) : String :=
  "'" ++ escape '\'' c ++ "'"

/-- A text between double quotes. -/
def text (s : String) : String :=
  "\"" ++ String.join (s.toList.map (escape '"')) ++ "\""

/-- The character with the number of a byte, between single quotes. -/
def byte (b : UInt8) : String :=
  char (Char.ofNat b.toNat)

end DirectivePack.Quoted
