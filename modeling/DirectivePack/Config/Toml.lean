import DirectivePack.Json.Reader

/-!
Reading TOML files as documents.

A file is a sequence of lines; a line is blank, a field, or a header that says under which table the
fields behind it stand.  No two lines may define one thing: a field is written once, a table gets
one header, and dotted keys do not reach into a table that has a header.

Dates and times are recognised, so that a file that holds some can be read, and become fields of
their own kind in the document; nothing reads their value.
-/

namespace DirectivePack

namespace Toml

/-! ### Blanks, comments, ends of lines -/

def skipSpaces : Reader Unit :=
  Reader.skipWhile fun c => c == ' ' || c == '\t'

/-- A character that may stand in a comment or in a literal text. -/
def isPlain (c : Char) : Bool :=
  c == '\t' || (0x20 ≤ c.toNat && c.toNat ≠ 0x7f)

def readLineEnd : Reader Unit :=
  Reader.char '\n' <|> Reader.literal "\r\n"

def skipComment : Reader Unit := do
  match ← Reader.peek? with
  | some '#' => Reader.skipWhile isPlain
  | _ => return ()

/-- Blanks, line ends and comments between the elements of an array. -/
def skipBetween : Reader Unit := do
  let _ ← Reader.many (do
    let _ ← Reader.satisfying (fun c => c == ' ' || c == '\t') <|>
      (do readLineEnd; return '\n') <|>
      (do Reader.char '#'; Reader.skipWhile isPlain; readLineEnd; return '\n'))
  skipComment

/-! ### Texts -/

def readEscaped : Reader Char := do
  match ← Reader.next with
  | 'b' => return '\x08'
  | 't' => return '\t'
  | 'n' => return '\n'
  | 'f' => return '\x0c'
  | 'r' => return '\r'
  | '"' => return '"'
  | '\\' => return '\\'
  | 'u' => Reader.hexChar 4
  | 'U' => Reader.hexChar 8
  | _ => failure

/-- A text on one line in which a backslash starts an escape. -/
def readQuoted : Reader String := do
  Reader.char '"'
  let text ← Reader.many (do
    match ← Reader.satisfying fun c => isPlain c && c != '"' with
    | '\\' => readEscaped
    | c => return c)
  Reader.char '"'
  return String.ofList text

/-- A text on one line in which every character stands for itself. -/
def readLiteral : Reader String := do
  Reader.char '\''
  let text ← Reader.takeWhile fun c => isPlain c && c != '\''
  Reader.char '\''
  return String.ofList text

/-- The end of a text over several lines: three quotes, with up to two more that belong to the
text. -/
def readTripleEnd (quote : Char) : Reader (List Char) :=
  (do let _ ← Reader.exactly (Reader.char quote) 5; return [quote, quote]) <|>
  (do let _ ← Reader.exactly (Reader.char quote) 4; return [quote]) <|>
  (do let _ ← Reader.exactly (Reader.char quote) 3; return [])

/-- A quote that does not end a text over several lines. -/
def readInnerQuote (quote : Char) : Reader (List Char) := do
  if ((← get).take 3).all (· == quote) then failure
  Reader.char quote
  return [quote]

/-- A piece of a text over several lines.  A line end is written as a line feed. -/
def readPiece (quote : Char) : Reader (List Char) :=
  (do readLineEnd; return ['\n']) <|>
  readInnerQuote quote <|>
  (do
    let c ← Reader.satisfying fun c => isPlain c && c != quote
    return [c])

/-- A backslash at the end of a line takes away the line end and all blanks behind it. -/
def readJoint : Reader (List Char) := do
  skipSpaces
  readLineEnd
  Reader.skipWhile fun c => c == ' ' || c == '\t' || c == '\n' || c == '\r'
  return []

/-- A text over several lines between three quotes of one kind. -/
def readTriple (quote : Char) (piece : Reader (List Char)) : Reader String := do
  let _ ← Reader.exactly (Reader.char quote) 3
  let _ ← Reader.optional readLineEnd
  let pieces ← Reader.many (do
    if ((← get).take 3) == [quote, quote, quote] then failure
    piece)
  let last ← readTripleEnd quote
  return String.ofList (pieces.flatten ++ last)

def readTripleQuoted : Reader String :=
  readTriple '"' (do
    match ← Reader.peek? with
    | some '\\' => do
      Reader.char '\\'
      readJoint <|> (do let c ← readEscaped; return [c])
    | _ => readPiece '"')

def readText : Reader String :=
  readTripleQuoted <|> readTriple '\'' (readPiece '\'') <|> readQuoted <|> readLiteral

/-! ### Keys -/

def isKeyChar (c : Char) : Bool :=
  c.isAlphanum || c == '_' || c == '-'

def readKeyPart : Reader String := do
  let part ← (String.ofList <$> Reader.takeWhileOne isKeyChar) <|> readQuoted <|> readLiteral
  skipSpaces
  return part

/-- The parts of a dotted key. -/
def readKey : Reader (List String) := do
  skipSpaces
  Reader.separated readKeyPart (do Reader.char '.'; skipSpaces)

/-! ### Numbers and dates -/

/-- Digits of which each two may have an underscore between them. -/
def readDigits (digit : Char → Bool) : Reader (List Char) := do
  let groups ← Reader.separated (Reader.takeWhileOne digit) (Reader.char '_')
  return groups.flatten

def readSign : Reader (List Char) := do
  return (← Reader.optional (Reader.satisfying fun c => c == '-' || c == '+')).toList

/-- Decimal digits without a zero in front. -/
def readMagnitude : Reader (List Char) := do
  match ← readDigits isDigit with
  | '0' :: _ :: _ => failure
  | digits => return digits

def readRadixInteger (letter : Char) (base : Nat) (digit : Char → Bool) : Reader Json := do
  Reader.char '0'
  Reader.char letter
  match digitsValue? base (← readDigits digit) with
  | some n => if n < Nat.pow 2 63 then return .integer n else failure
  | none => failure

def readInteger : Reader Json := do
  let negative := (← readSign) == ['-']
  match digitsValue? 10 (← readMagnitude) with
  | some n =>
    if negative && n ≤ Nat.pow 2 63 then return .integer (-n)
    else if ! negative && n < Nat.pow 2 63 then return .integer n
    else failure
  | none => failure

def readExponent : Reader (List Char) := do
  let _ ← Reader.satisfying fun c => c == 'e' || c == 'E'
  let sign ← readSign
  return 'e' :: sign ++ (← readDigits isDigit)

def readFraction : Reader (List Char) := do
  Reader.char '.'
  return '.' :: (← readDigits isDigit)

def readFloat : Reader Json := do
  let sign ← readSign
  let magnitude ← readMagnitude
  let behind ← (do
      let fraction ← readFraction
      return fraction ++ ((← Reader.optional readExponent).getD [])) <|>
    readExponent
  match decimalOfText? (sign ++ magnitude ++ behind) with
  | some x => if x.isFinite then return .float x else failure
  | none => failure

def readSpecialFloat : Reader Json := do
  let negative := (← readSign) == ['-']
  (do
    Reader.literal "inf"
    return .float (.ofPattern (FloatFormat.binary64.withSign negative FloatFormat.binary64.infinity))) <|>
  (do
    Reader.literal "nan"
    return .float (.ofPattern 0x7FF8000000000000))

/-- A number of exactly `width` digits in a range. -/
def readPart (width least greatest : Nat) : Reader Nat := do
  match digitsValue? 10 (← Reader.exactly (Reader.satisfying isDigit) width) with
  | some n => if least ≤ n && n ≤ greatest then return n else failure
  | none => failure

def daysOfMonth (year month : Nat) : Nat :=
  if month == 2 then
    if year % 4 == 0 && (year % 100 != 0 || year % 400 == 0) then 29 else 28
  else if month == 4 || month == 6 || month == 9 || month == 11 then 30
  else 31

def readDate : Reader Unit := do
  let year ← readPart 4 0 9999
  Reader.char '-'
  let month ← readPart 2 1 12
  Reader.char '-'
  let _ ← readPart 2 1 (daysOfMonth year month)

def readTime : Reader Unit := do
  let _ ← readPart 2 0 23
  Reader.char ':'
  let _ ← readPart 2 0 59
  Reader.char ':'
  let _ ← readPart 2 0 60
  let _ ← Reader.optional (do Reader.char '.'; Reader.takeWhileOne isDigit)

def readOffset : Reader Unit :=
  Reader.char 'Z' <|> Reader.char 'z' <|> (do
    let _ ← Reader.satisfying fun c => c == '-' || c == '+'
    let _ ← readPart 2 0 23
    Reader.char ':'
    let _ ← readPart 2 0 59)

/-- How a date or a time stands in a document: as a table with one field, whose key comes before the
name of every output form. -/
def moment (text : String) : Json :=
  .object [("date", .string text)]

/-- A date, a time, or both with an optional offset. -/
def readMoment : Reader Json := do
  let start ← get
  (do
    readDate
    let _ ← Reader.optional (do
      let _ ← Reader.satisfying fun c => c == 'T' || c == 't' || c == ' '
      readTime
      let _ ← Reader.optional readOffset)) <|>
    readTime
  return moment (String.ofList (start.take (start.length - (← get).length)))

def readNumber : Reader Json :=
  readMoment <|> readFloat <|> readSpecialFloat <|>
  readRadixInteger 'x' 16 (fun c => c.isDigit || ('a' ≤ c && c ≤ 'f') || ('A' ≤ c && c ≤ 'F')) <|>
  readRadixInteger 'o' 8 (fun c => '0' ≤ c && c ≤ '7') <|>
  readRadixInteger 'b' 2 (fun c => c == '0' || c == '1') <|>
  readInteger

def readBoolean : Reader Json :=
  (do Reader.literal "true"; return .boolean true) <|>
  (do Reader.literal "false"; return .boolean false)

/-! ### Tables -/

/-- How a table came to be: by a header of its own, by a header or field below it, or by a dotted
key. -/
inductive Origin where
  | header
  | implied
  | dotted
deriving DecidableEq, Repr

/-- What stands under a key. -/
inductive Entry where
  | value (document : Json)
  | table (origin : Origin) (entries : List (String × Entry))
  | tables (elements : List (List (String × Entry)))

abbrev Entries := List (String × Entry)

namespace Entries

/-- The entry under a key. -/
def find? (key : String) : Entries → Option Entry
  | [] => none
  | (name, entry) :: entries => if name = key then some entry else find? key entries

/-- The entries with the one under a key put in. -/
def put (key : String) (entry : Entry) : Entries → Entries
  | [] => [(key, entry)]
  | (name, old) :: entries =>
    if name = key then (key, entry) :: entries else (name, old) :: put key entry entries

/-- Changes the last element of a list. -/
def changeLast (change : Entries → Option Entries) : List Entries → Option (List Entries)
  | [] => none
  | [last] => (change last).map fun changed => [changed]
  | element :: elements => (changeLast change elements).map (element :: ·)

/-- Changes the table at the end of a path, and makes tables where there are none.  A dotted path
does not enter a table with a header; a path into an array of tables enters its last one. -/
def changeAt (dotted : Bool) (change : Origin → Entries → Option Entries) :
    List String → Origin → Entries → Option Entries
  | [], origin, entries => change origin entries
  | key :: path, _, entries =>
    match find? key entries with
    | none =>
      let origin := if dotted then .dotted else .implied
      (changeAt dotted change path origin []).map fun inner => put key (.table origin inner) entries
    | some (.table origin inner) =>
      if dotted && origin == .header then none
      else
        (changeAt dotted change path origin inner).map fun inner => put key (.table origin inner) entries
    | some (.tables elements) =>
      (changeLast (changeAt dotted change path .header) elements).map fun elements =>
        put key (.tables elements) entries
    | some (.value _) => none

/-- Adds a field that is not there yet. -/
def addField (key : String) (document : Json) (entries : Entries) : Option Entries :=
  match find? key entries with
  | none => some (entries ++ [(key, .value document)])
  | some _ => none

/-- Adds a field under a dotted key, of which the parts but the last are `path`. -/
def addDotted (path : List String) (key : String) (document : Json) : Origin → Entries → Option Entries :=
  changeAt true
    (fun origin entries =>
      if path.isEmpty || origin == .dotted then addField key document entries else none)
    path

/-- Opens the table of a header. -/
def openTable (key : String) (_ : Origin) (entries : Entries) : Option Entries :=
  match find? key entries with
  | none => some (entries ++ [(key, .table .header [])])
  | some (.table .implied inner) => some (put key (.table .header inner) entries)
  | some _ => none

/-- Opens one more table of an array of tables. -/
def openElement (key : String) (_ : Origin) (entries : Entries) : Option Entries :=
  match find? key entries with
  | none => some (entries ++ [(key, .tables [[]])])
  | some (.tables elements) => some (put key (.tables (elements ++ [[]])) entries)
  | some _ => none

end Entries

mutual

def Entry.toJson : Entry → Json
  | .value document => document
  | .table _ entries => .object (fieldsOf entries)
  | .tables elements => .array (itemsOf elements)

def fieldsOf : List (String × Entry) → List (String × Json)
  | [] => []
  | (key, entry) :: entries => (key, entry.toJson) :: fieldsOf entries

def itemsOf : List (List (String × Entry)) → List Json
  | [] => []
  | entries :: elements => .object (fieldsOf entries) :: itemsOf elements

end

/-! ### Values -/

/-- The last of the parts of a key, with the parts before it. -/
def splitLast : List String → Option (List String × String)
  | [] => none
  | [key] => some ([], key)
  | part :: parts => (splitLast parts).map fun (path, key) => (part :: path, key)

/-- A key, its value, and the parts of the key before the last. -/
def readField (value : Reader Json) : Reader (List String × String × Json) := do
  match splitLast (← readKey) with
  | none => failure
  | some (path, key) =>
    Reader.char '='
    skipSpaces
    let document ← value
    return (path, key, document)

def readArray (value : Reader Json) : Reader Json := do
  Reader.char '['
  skipBetween
  let items ← Reader.optional
    (Reader.separated (do let v ← value; skipBetween; return v) (do Reader.char ','; skipBetween))
  if items.isSome then
    let _ ← Reader.optional (do Reader.char ','; skipBetween)
  Reader.char ']'
  return .array (items.getD [])

/-- A table on one line. -/
def readInlineTable (value : Reader Json) : Reader Json := do
  Reader.char '\x7b'
  skipSpaces
  let fields ← Reader.optional
    (Reader.separated (do let field ← readField value; skipSpaces; return field) (Reader.char ','))
  Reader.char '\x7d'
  let entries? := (fields.getD []).foldlM
    (fun entries (path, key, document) => Entries.addDotted path key document .dotted entries)
    ([] : Entries)
  match entries? with
  | some entries => return .object (fieldsOf entries)
  | none => failure

/-- A value with at most so many levels of nesting. -/
def readValue : Nat → Reader Json
  | 0 => (.string <$> readText) <|> readBoolean <|> readNumber
  | depth + 1 =>
    (.string <$> readText) <|> readBoolean <|> readNumber <|>
    readArray (readValue depth) <|> readInlineTable (readValue depth)

/-! ### Lines -/

/-- A line: blank, a field, the header of a table, or that of an element of an array of tables. -/
inductive Line where
  | blank
  | field (path : List String) (key : String) (document : Json)
  | table (path : List String) (key : String)
  | element (path : List String) (key : String)

def readHeader : Reader Line := do
  Reader.char '['
  let double ← Reader.optional (Reader.char '[')
  match splitLast (← readKey) with
  | none => failure
  | some (path, key) =>
    Reader.char ']'
    match double with
    | some () =>
      Reader.char ']'
      return .element path key
    | none => return .table path key

def readContent : Reader Line := do
  match ← Reader.peek? with
  | none | some '#' | some '\n' | some '\r' => return .blank
  | some '[' => readHeader
  | some _ =>
    let (path, key, document) ← readField (readValue 80)
    return .field path key document

def readLine : Reader Line := do
  skipSpaces
  let line ← readContent
  skipSpaces
  skipComment
  return line

/-- The tables that lines define, read under the header at `path`. -/
def place : List Line → List String → Entries → Option Entries
  | [], _, entries => some entries
  | .blank :: lines, path, entries => place lines path entries
  | .field parts key document :: lines, path, entries =>
    (Entries.changeAt false (Entries.addDotted parts key document) path .header entries).bind
      (place lines path)
  | .table parts key :: lines, _, entries =>
    (Entries.changeAt false (Entries.openTable key) parts .header entries).bind
      (place lines (parts ++ [key]))
  | .element parts key :: lines, _, entries =>
    (Entries.changeAt false (Entries.openElement key) parts .header entries).bind
      (place lines (parts ++ [key]))

/-- The document that the text of a file is.  A mark of the byte order in front is skipped. -/
def read? (text : List Char) : Option Json :=
  let text := match text with
    | '\uFEFF' :: rest => rest
    | _ => text
  ((Reader.whole? (Reader.separated readLine readLineEnd) text).bind (place · [] [])).map
    fun entries => .object (fieldsOf entries)

end Toml

end DirectivePack
