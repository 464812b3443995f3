import DirectivePack.Text.Numeral
import DirectivePack.Text.Utf8

/-!
Places in YAML files.

Indentation is meaning in YAML, so whoever reads a file has to know the line and the column of what
is in front.  A `Cursor` is the text that is left together with the place where it starts, and a
`Scan` reads from a cursor or refuses the file.

Five characters end a line; a carriage return and a line feed behind it end one line together.
-/

namespace DirectivePack

namespace Yaml

/-! ### Characters -/

def isSpace (c : Char) : Bool :=
  c == ' ' || c == '\t'

def isLineEnd (c : Char) : Bool :=
  c == '\n' || c == '\r' || c == '\u0085' || c == '\u2028' || c == '\u2029'

/-- A character that separates words. -/
def isGap (c : Char) : Bool :=
  isSpace c || isLineEnd c

/-- A character of names. -/
def isNameChar (c : Char) : Bool :=
  ('0' ≤ c && c ≤ '9') || ('a' ≤ c && c ≤ 'z') || ('A' ≤ c && c ≤ 'Z') || c == '_' || c == '-'

/-- A character that ends or divides what stands between brackets. -/
def isFlowMark (c : Char) : Bool :=
  c == ',' || c == '[' || c == ']' || c == '\x7b' || c == '\x7d'

/-- Nothing is left, or what is in front separates words. -/
def atGap : List Char → Bool
  | [] => true
  | c :: _ => isGap c

/-- Nothing is left of the line. -/
def atLineEnd : List Char → Bool
  | [] => true
  | c :: _ => isLineEnd c

/-! ### Cursors -/

/-- A text and the place where it starts.  `index` counts the characters in front of it. -/
structure Cursor where
  rest : List Char
  index : Nat
  line : Nat
  column : Nat

namespace Cursor

def start (text : List Char) : Cursor :=
  ⟨text, 0, 0, 0⟩

/-- Behind the next `n` characters, which all are on the line. -/
def skip (n : Nat) (here : Cursor) : Cursor :=
  ⟨here.rest.drop n, here.index + n, here.line, here.column + n⟩

/-- Behind the line end in front. -/
def nextLine (here : Cursor) : Cursor :=
  match here.rest with
  | '\r' :: '\n' :: rest => ⟨rest, here.index + 2, here.line + 1, 0⟩
  | _ :: rest => ⟨rest, here.index + 1, here.line + 1, 0⟩
  | [] => here

/-- Whether a mark that starts or ends a document is in front. -/
def atDocumentMark (here : Cursor) : Bool :=
  here.column == 0 &&
    match here.rest with
    | '-' :: '-' :: '-' :: rest => atGap rest
    | '.' :: '.' :: '.' :: rest => atGap rest
    | _ => false

end Cursor

/-! ### Scans -/

/-- Reads a value from a cursor, or refuses the file. -/
abbrev Scan :=
  StateT Cursor Option

namespace Scan

/-- The text that is left. -/
def rest : Scan (List Char) := do
  return (← get).rest

/-- The next character, which is left where it is. -/
def peek? : Scan (Option Char) := do
  return (← get).rest.head?

/-- Passes `n` characters of the line. -/
def skip (n : Nat) : Scan Unit :=
  modify (Cursor.skip n)

/-- Passes the given character. -/
def char (c : Char) : Scan Unit := do
  if (← peek?) == some c then skip 1 else failure

/-- The longest run of characters of the line with a property. -/
def takeWhile (p : Char → Bool) : Scan (List Char) := do
  let taken := (← rest).takeWhile fun c => p c && ! isLineEnd c
  skip taken.length
  return taken

def skipWhile (p : Char → Bool) : Scan Unit := do
  let _ ← takeWhile p

/-- Passes the line end in front, if there is one, and tells what it stands for within a text: a
line feed, or itself if it is the line separator or the paragraph separator. -/
def lineEnd : Scan (List Char) := do
  match ← peek? with
  | none => return []
  | some c =>
    if isLineEnd c then
      modify Cursor.nextLine
      return [if c == '\u2028' || c == '\u2029' then c else '\n']
    else return []

/-- Passes the rest of a line that holds blanks and a comment at most, and the line end. -/
def finishLine : Scan Unit := do
  skipWhile isSpace
  if (← peek?) == some '#' then skipWhile fun _ => true
  if atLineEnd (← rest) then
    let _ ← lineEnd
  else failure

end Scan

end Yaml

end DirectivePack
