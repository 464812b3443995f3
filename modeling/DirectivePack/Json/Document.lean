import DirectivePack.Float.Decimal

/-!
JSON documents and their two layouts: on one line without blanks, and with one element a line,
indented by two blanks a level.

In a string, a quote, a backslash and the control characters below U+0020 are escaped; all other
characters stand as they are.
-/

namespace DirectivePack

/-- A JSON document.  Fields keep the order in which they are given. -/
inductive Json where
  | null
  | boolean (b : Bool)
  | integer (n : Int)
  | float (x : Binary64)
  | string (s : String)
  | array (items : List Json)
  | object (fields : List (String × Json))

namespace Json

/-! ### Strings -/

/-- Two lowercase hexadecimal digits. -/
def twoDigits (n : Nat) : String :=
  String.ofList [Nat.digitChar (n / 16 % 16), Nat.digitChar (n % 16)]

def escape (c : Char) : String :=
  if c = '"' then "\\\""
  else if c = '\\' then "\\\\"
  else if c = '\n' then "\\n"
  else if c = '\r' then "\\r"
  else if c = '\t' then "\\t"
  else if c = '\x08' then "\\b"
  else if c = '\x0c' then "\\f"
  else if c.toNat < 0x20 then "\\u00" ++ twoDigits c.toNat
  else String.singleton c

def quote (s : String) : String :=
  "\"" ++ String.join (s.toList.map escape) ++ "\""

/-! ### Layouts -/

mutual

/-- The document on one line. -/
def compact : Json → String
  | .null => "null"
  | .boolean b => if b then "true" else "false"
  | .integer n => toString n
  | .float x => x.exponentText
  | .string s => quote s
  | .array items => "[" ++ ",".intercalate (compactItems items) ++ "]"
  | .object fields => "\x7b" ++ ",".intercalate (compactFields fields) ++ "\x7d"

def compactItems : List Json → List String
  | [] => []
  | item :: items => compact item :: compactItems items

def compactFields : List (String × Json) → List String
  | [] => []
  | (key, item) :: fields => (quote key ++ ":" ++ compact item) :: compactFields fields

end

/-- Lines of elements between brackets, each on a line of its own; brackets alone if there are
none. -/
def bracketed (level : Nat) (left right : String) (elements : List String) : String :=
  let newline (level : Nat) := "\n" ++ "".pushn ' ' (2 * level)
  match elements with
  | [] => left ++ right
  | _ =>
    left ++ newline (level + 1) ++ ("," ++ newline (level + 1)).intercalate elements ++
      newline level ++ right

mutual

/-- The document with an element a line, from `level` levels of indentation on. -/
def prettyFrom (level : Nat) : Json → String
  | .array items => bracketed level "[" "]" (prettyItems (level + 1) items)
  | .object fields => bracketed level "\x7b" "\x7d" (prettyFields (level + 1) fields)
  | .null => "null"
  | .boolean b => if b then "true" else "false"
  | .integer n => toString n
  | .float x => x.exponentText
  | .string s => quote s

def prettyItems (level : Nat) : List Json → List String
  | [] => []
  | item :: items => prettyFrom level item :: prettyItems level items

def prettyFields (level : Nat) : List (String × Json) → List String
  | [] => []
  | (key, item) :: fields =>
    (quote key ++ ": " ++ prettyFrom level item) :: prettyFields level fields

end

/-- The document with an element a line. -/
def pretty : Json → String :=
  prettyFrom 0

end Json

end DirectivePack
