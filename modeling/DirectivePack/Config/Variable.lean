import DirectivePack.Json.Reader
import DirectivePack.Text.Blank

/-!
Values written in environment variables.

A value is a truth value, a list or a table between brackets, a text between quotes, or a word: a
word with a point that is a decimal number is a float, a word that is an integer of 64 bits is one,
and any other is a text.  What reads as no value from its start to its end is a text as it stands,
so every variable has a value.
-/

namespace DirectivePack

/-- Variables by name, with their values. -/
abbrev Environment := List (String × String)

namespace Variable

def skipBlanks : Reader Unit :=
  Reader.skipWhile isBlank

/-- A character that divides values. -/
def isDivider (c : Char) : Bool :=
  c == ',' || c == '[' || c == ']' || c == '\x7b' || c == '\x7d'

/-! ### Words -/

/-- An integer that fits a 64-bit word, signed or unsigned. -/
def integerOfText? (text : List Char) : Option Int :=
  let (negative, digits) := takeSign text
  match digitsValue? 10 digits with
  | some n =>
    let value : Int := if negative then -n else n
    if Field.fits 8 value then some value else none
  | none => none

def ofWord (text : List Char) : Json :=
  match if text.contains '.' then decimalOfText? text else none, integerOfText? text with
  | some x, _ => .float x
  | none, some n => .integer n
  | none, none => .string (String.ofList text)

def readWord : Reader Json := do
  return ofWord (trim (← Reader.takeWhile (! isDivider ·)))

/-! ### Texts -/

def readEscaped : Reader Char := do
  match ← Reader.next with
  | 'b' => return '\x08'
  | 't' => return '\t'
  | 'n' => return '\n'
  | 'f' => return '\x0c'
  | 'r' => return '\r'
  | '"' => return '"'
  | '\\' => return '\\'
  | 'u' => Reader.hexChar 4
  | 'U' => Reader.hexChar 8
  | _ => failure

def readQuoted : Reader String := do
  Reader.char '"'
  let text ← Reader.many (do
    match ← Reader.satisfying fun c =>
      c != '"' && (c == '\t' || (0x20 ≤ c.toNat && c.toNat ≠ 0x7F)) with
    | '\\' => readEscaped
    | c => return c)
  Reader.char '"'
  return String.ofList text

/-- A single character between single quotes. -/
def readLetter : Reader Json := do
  Reader.char '\''
  let c ← Reader.next
  Reader.char '\''
  return .string (String.singleton c)

/-! ### Lists and tables -/

/-- What stands between brackets, divided by commas, of which the last may follow the last element. -/
def readBetween {α : Type} (left right : Char) (element : Reader α) : Reader (List α) := do
  Reader.char left
  skipBlanks
  let elements ← Reader.many (do
    if (← Reader.peek?) == some right then failure
    let e ← element
    skipBlanks
    if (← Reader.peek?) != some right then Reader.char ','
    skipBlanks
    return e)
  Reader.char right
  return elements

def readKey : Reader String := do
  match ← Reader.peek? with
  | some '"' => readQuoted
  | _ =>
    let key ← Reader.takeWhileOne fun c => ! isDivider c && c != '='
    return String.ofList (trim key)

/-- A value with at most so many levels of nesting. -/
def readValue : Nat → Reader Json
  | 0 => failure
  | depth + 1 => do
    skipBlanks
    let value ←
      (do Reader.literal "true"; return .boolean true) <|>
      (do Reader.literal "false"; return .boolean false) <|>
      (do match ← Reader.peek? with
        | some '\x7b' => Json.ofFields <$> readBetween '\x7b' '\x7d' (do
            let key ← readKey
            skipBlanks
            Reader.char '='
            return (key, ← readValue depth))
        | some '[' => .array <$> readBetween '[' ']' (readValue depth)
        | some '"' => .string <$> readQuoted
        | some '\'' => readLetter
        | _ => readWord)
    skipBlanks
    return value

/-- The value of a variable. -/
def read (text : String) : Json :=
  (Reader.whole? (readValue text.length.succ) text.toList).getD (.string text)

/-! ### Names -/

/-- The field that a dotted name stands for: one object inside the other. -/
def nest (value : Json) : List String → Json
  | [] => value
  | part :: parts => .object [(part, nest value parts)]

end Variable

end DirectivePack
