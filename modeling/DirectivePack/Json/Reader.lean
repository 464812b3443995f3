import DirectivePack.Field.Integer
import DirectivePack.Json.Document
import DirectivePack.Text.Reader

/-!
Reading JSON documents.

The whole text has to be one document.  Of two fields with one key the later one counts.  Integers
that fit no 64-bit word are read as doubles, and a number too large for a double is refused, as is
nesting deeper than 127 levels.
-/

namespace DirectivePack

namespace Json

/-! ### Fields -/

/-- The field under a key. -/
def field? (key : String) : List (String × Json) → Option Json
  | [] => none
  | (name, item) :: fields => if name = key then some item else field? key fields

/-- The fields with one key put in: in the place of the field under that key, or at the end. -/
def putField (key : String) (item : Json) : List (String × Json) → List (String × Json)
  | [] => [(key, item)]
  | (name, old) :: fields =>
    if name = key then (key, item) :: fields else (name, old) :: putField key item fields

/-- An object of which the later of two fields with one key counts. -/
def ofFields (fields : List (String × Json)) : Json :=
  .object (fields.foldl (fun sofar (key, item) => putField key item sofar) [])

/-! ### Leaves -/

def skipBlanks : Reader Unit :=
  Reader.skipWhile fun c => c == ' ' || c == '\t' || c == '\n' || c == '\r'

/-- A mark, and the blanks behind it. -/
def mark (c : Char) : Reader Unit := do
  Reader.char c
  skipBlanks

/-- An integer without a sign: a zero alone, or digits that start with another one. -/
def readMagnitude : Reader (List Char) := do
  match ← Reader.takeWhileOne isDigit with
  | '0' :: _ :: _ => failure
  | digits => return digits

/-- The part of a number behind a point. -/
def readFraction : Reader (List Char) := do
  Reader.char '.'
  Reader.takeWhileOne isDigit

def readExponent : Reader (List Char) := do
  let _ ← Reader.satisfying fun c => c == 'e' || c == 'E'
  let sign ← Reader.optional (Reader.satisfying fun c => c == '-' || c == '+')
  return 'e' :: sign.toList ++ (← Reader.takeWhileOne isDigit)

def readNumber : Reader Json := do
  let sign ← Reader.optional (Reader.char '-')
  let magnitude ← readMagnitude
  let fraction ← Reader.optional readFraction
  let exponent ← Reader.optional readExponent
  let negative := sign.isSome
  let float : Reader Json := do
    let behind := (fraction.map ('.' :: ·)).getD [] ++ exponent.getD []
    match decimalOfText? (['-'].filter (fun _ => negative) ++ magnitude ++ behind) with
    | some x => if x.isFinite then return .float x else failure
    | none => failure
  match fraction, exponent, digitsValue? 10 magnitude with
  | none, none, some n =>
    let value : Int := if negative then -n else n
    if Field.fits 8 value && ! (negative && n == 0) then return .integer value else float
  | _, _, _ => float

/-- The character behind a backslash.  Two numbers of surrogates make one character. -/
def readEscaped : Reader Char := do
  match ← Reader.next with
  | '"' => return '"'
  | '\\' => return '\\'
  | '/' => return '/'
  | 'b' => return '\x08'
  | 'f' => return '\x0c'
  | 'n' => return '\n'
  | 'r' => return '\r'
  | 't' => return '\t'
  | 'u' =>
    let high ← Reader.hexNumber 4
    if 0xD800 ≤ high && high < 0xDC00 then
      Reader.literal "\\u"
      let low ← Reader.hexNumber 4
      if 0xDC00 ≤ low && low < 0xE000 then
        return Char.ofNat (0x10000 + 0x400 * (high - 0xD800) + (low - 0xDC00))
      else failure
    else
      match charOfNumber? high with
      | some c => return c
      | none => failure
  | _ => failure

def readStringChar : Reader Char := do
  let c ← Reader.satisfying fun c => c != '"' && 0x20 ≤ c.toNat
  if c == '\\' then readEscaped else return c

def readString : Reader String := do
  Reader.char '"'
  let text ← Reader.many readStringChar
  Reader.char '"'
  return String.ofList text

def readName : Reader Json :=
  (do Reader.literal "null"; return .null) <|>
  (do Reader.literal "true"; return .boolean true) <|>
  (do Reader.literal "false"; return .boolean false)

/-! ### Documents -/

/-- Elements between brackets. -/
def readBetween {α : Type} (left right : Char) (element : Reader α) : Reader (List α) := do
  mark left
  match ← Reader.optional (Reader.char right) with
  | some () => return []
  | none =>
    let elements ← Reader.separated (do let e ← element; skipBlanks; return e) (mark ',')
    Reader.char right
    return elements

/-- A value with at most so many levels of nesting. -/
def readValue : Nat → Reader Json
  | 0 => readName <|> readNumber <|> (.string <$> readString)
  | depth + 1 =>
    readName <|> readNumber <|> (.string <$> readString) <|>
    (.array <$> readBetween '[' ']' (readValue depth)) <|>
    (ofFields <$> readBetween '\x7b' '\x7d' (do
      let key ← readString
      skipBlanks
      mark ':'
      return (key, ← readValue depth)))

/-- The document that a text is. -/
def read? (text : List Char) : Option Json :=
  Reader.whole? (do skipBlanks; let document ← readValue 127; skipBlanks; return document) text

end Json

end DirectivePack
