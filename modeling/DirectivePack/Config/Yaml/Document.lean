import DirectivePack.Config.Yaml.Node
import DirectivePack.Json.Reader

/-!
YAML files as documents.

A plain text that looks like nothing, a truth value or a number is one; a quoted text never is.
A tag of the language says which of these a text is.  Any other tag that starts with an exclamation
mark makes an object of its node, with the name of the tag as the only key.

Nodes nest 128 levels deep at most, and following references is limited by the size of the file.

* `read?` is the document of a file: a mapping, or nothing, which is an empty object.
-/

namespace DirectivePack

namespace Yaml

/-! ### Texts -/

/-- Whether all is digits and starts with a zero that is not alone, a sign aside.  Such a text is
no number. -/
def hasLeadingZero (text : List Char) : Bool :=
  let digits := (takeSign text).2
  match digits with
  | '0' :: _ :: _ => digits.all isDigit
  | _ => false

/-- An integer of 128 bits, signed or unsigned: decimal digits, or digits to another base behind
`0x`, `0o` or `0b`. -/
def integerOfText? (text : List Char) : Option Int :=
  let (negative, body) := takeSign text
  let magnitude? := match body with
    | '0' :: 'x' :: digits => digitsValue? 16 digits
    | '0' :: 'o' :: digits => digitsValue? 8 digits
    | '0' :: 'b' :: digits => digitsValue? 2 digits
    | digits => digitsValue? 10 digits
  match magnitude? with
  | some n =>
    let value : Int := if negative then -n else n
    if ! hasLeadingZero text && Field.fits 16 value then some value else none
  | none => none

/-- A decimal number that is finite as a double, or the name of a value that no number has. -/
def floatOfText? (text : List Char) : Option Binary64 :=
  let infinite (negative : Bool) : Option Binary64 :=
    some (.ofPattern (FloatFormat.binary64.withSign negative FloatFormat.binary64.infinity))
  match String.ofList text with
  | ".inf" | ".Inf" | ".INF" | "+.inf" | "+.Inf" | "+.INF" => infinite false
  | "-.inf" | "-.Inf" | "-.INF" => infinite true
  | ".nan" | ".NaN" | ".NAN" => some (.ofPattern 0x7FF8000000000000)
  | _ => (decimalOfText? text).filter (·.isFinite)

def booleanOfText? (text : List Char) : Option Bool :=
  match String.ofList text with
  | "true" | "True" | "TRUE" => some true
  | "false" | "False" | "FALSE" => some false
  | _ => none

/-- Whether a text is a word for nothing. -/
def meansNull (text : List Char) : Bool :=
  match String.ofList text with
  | "~" | "null" | "Null" | "NULL" => true
  | _ => false

/-- What a plain text stands for. -/
def resolve (text : List Char) : Json :=
  if text.isEmpty || meansNull text then .null
  else
    match booleanOfText? text, integerOfText? text, floatOfText? text with
    | some truth, _, _ => .boolean truth
    | none, some n, _ => .integer n
    | none, none, some x =>
      if hasLeadingZero text then .string (String.ofList text) else .float x
    | none, none, none => .string (String.ofList text)

/-! ### Tags -/

/-- The name of a tag that starts with an exclamation mark. -/
def nameOfTag? (tag : Bytes) : Option String :=
  match tag with
  | [0x21] => some "!"
  | 0x21 :: name => Utf8.decode? name
  | _ => none

/-- What a text with a tag stands for, where the tag has no name. -/
def resolveTagged (tag : Bytes) (plain : Bool) (text : List Char) : Option Json :=
  match (Utf8.decode? tag).getD "" with
  | "tag:yaml.org,2002:bool" => (booleanOfText? text).map .boolean
  | "tag:yaml.org,2002:int" => (integerOfText? text).map .integer
  | "tag:yaml.org,2002:float" => (floatOfText? text).map .float
  | "tag:yaml.org,2002:null" => if meansNull text then some .null else none
  | _ =>
    if plain && tag.head? == some 0x21 then some (resolve text)
    else some (.string (String.ofList text))

/-! ### Nodes -/

/-- Reads from the tree of nodes; the state is how many references may yet be followed. -/
abbrev Follow :=
  StateT Nat Option

namespace Document

/-- The node that the references to an anchor lead to. -/
def target? (document : Document) (number : Nat) : Option Node :=
  let found := document.anchored.filter (·.number == number)
  let last := found.foldl (fun sofar entry => max sofar entry.place) 0
  (found.find? (·.place == last)).map (·.node)

/-- The node itself, or the one that it leads to. -/
def follow (document : Document) : Node → Follow Node
  | .reference number => do
    match ← get, document.target? number with
    | left + 1, some target =>
      set left
      return target
    | _, _ => failure
  | node => return node

/-- The text of a key, whatever it looks like. -/
def keyText (document : Document) (key : Node) : Follow String := do
  match ← document.follow key with
  | .scalar _ _ text => return String.ofList text
  | _ => failure

/-- What a node stands for, down to a depth. -/
def toJson (document : Document) : Nat → Node → Follow Json
  | depth, node => do
    let node ← document.follow node
    let tag? := match node with
      | .scalar tag? _ _ | .sequence tag? _ | .mapping tag? _ => tag?
      | .reference _ => none
    let name? := tag?.bind nameOfTag?
    let inner ← match node, depth with
      | .scalar tag? plain text, _ =>
        match name?, tag? with
        | none, some tag => (resolveTagged tag plain text : Option Json)
        | _, _ => pure (if plain then resolve text else .string (String.ofList text))
      | .sequence _ items, depth + 1 => Json.array <$> items.mapM (toJson document depth)
      | .mapping _ fields, depth + 1 => do
        let fields ← fields.mapM fun (key, item) => do
          let key ← document.keyText key
          return (key, ← toJson document depth item)
        pure (Json.ofFields fields)
      | _, _ => failure
    return match name? with
      | some name => .object [(name, inner)]
      | none => inner

/-- The object that the mapping of a document is.  A plain text without characters counts as an empty
mapping, and tags count for nothing here. -/
def toObject? (document : Document) : Option Json :=
  let run (root : Node) : Option Json :=
    (document.toJson 128 root (100 * document.size)).map (·.1)
  match document.root with
  | .mapping _ fields => run (.mapping none fields)
  | .scalar _ true [] => some (.object [])
  | _ => none

end Document

/-! ### Files -/

/-- A character that a file may hold. -/
def isAllowed (c : Char) : Bool :=
  c == '\t' || c == '\n' || c == '\r' || (0x20 ≤ c.toNat && c.toNat ≤ 0x7E) || c.toNat == 0x85 ||
    (0xA0 ≤ c.toNat && c.toNat ≤ 0xFFFD) || 0x10000 ≤ c.toNat

/-- The document of a file. -/
def read? (text : List Char) : Option Json := do
  if ! text.all isAllowed then none
  match ← document? (← tokens? text) with
  | some document => document.toObject?
  | none => return .object []

end Yaml

end DirectivePack
