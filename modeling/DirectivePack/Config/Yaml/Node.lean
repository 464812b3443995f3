import DirectivePack.Config.Yaml.Token

/-!
Nodes of YAML files, with their tags and anchors.

A file holds one document at most, and a document is one node.  References stay in the tree as the
numbers of the anchors that they lead to.  An anchor has as its number how many names of anchors
there are in front of it.  So an anchor whose name is given again has a new number, which the next
new name has too; of two nodes with one number, references lead to the one that starts later.

* `document?` is the document that the tokens of a file make.
-/

namespace DirectivePack

namespace Yaml

inductive Node where
  | reference (number : Nat)
  | scalar (tag? : Option Bytes) (plain : Bool) (text : List Char)
  | sequence (tag? : Option Bytes) (items : List Node)
  | mapping (tag? : Option Bytes) (fields : List (Node × Node))

/-- A node that has an anchor. -/
structure Anchored where
  number : Nat
  /-- How many anchored nodes start in front of this one. -/
  place : Nat
  node : Node

/-- What is known between two tokens. -/
structure Parser where
  tokens : List Token
  /-- What the short forms of tags stand for. -/
  shorthands : List (List Char × Bytes)
  /-- The names of anchors with their numbers. -/
  names : List (List Char × Nat)
  anchors : Nat
  anchored : List Anchored
  /-- How much has been read: scalars and references count once, collections twice. -/
  size : Nat

abbrev Parse :=
  StateT Parser Option

namespace Parse

/-! ### Tokens -/

def peek? : Parse (Option Token) := do
  return (← get).tokens.head?

def pass : Parse Unit :=
  modify fun parser => { parser with tokens := parser.tokens.drop 1 }

/-- Passes the given token. -/
def expect (token : Token) : Parse Unit := do
  if (← peek?) == some token then pass else failure

/-- Whether one of some tokens is in front. -/
def at? (tokens : List Token) : Parse Bool := do
  return (← peek?).any tokens.contains

def grow (size : Nat) : Parse Unit :=
  modify fun parser => { parser with size := parser.size + size }

/-! ### Properties -/

/-- The tag that a handle and a suffix stand for. -/
def expand (handle : List Char) (suffix : Bytes) : Parse Bytes := do
  if handle.isEmpty then return suffix
  match (← get).shorthands.find? fun entry => entry.1 == handle with
  | some (_, expansion) => return expansion ++ suffix
  | none => failure

/-- An anchor and a tag in front of a node, in either order. -/
def properties : Parse (Option (List Char) × Option Bytes) := do
  match ← peek? with
  | some (.anchor name) =>
    pass
    match ← peek? with
    | some (.tag handle suffix) =>
      pass
      return (some name, some (← expand handle suffix))
    | _ => return (some name, none)
  | some (.tag handle suffix) =>
    pass
    match ← peek? with
    | some (.anchor name) =>
      pass
      return (some name, some (← expand handle suffix))
    | _ => return (none, some (← expand handle suffix))
  | _ => return (none, none)

/-- The number of a new anchor, and its place among the anchors. -/
def open? : Option (List Char) → Parse (Option (Nat × Nat))
  | none => return none
  | some name => do
    let parser ← get
    let number := parser.names.length
    set { parser with
      names := (name, number) :: parser.names.filter fun entry => entry.1 != name
      anchors := parser.anchors + 1 }
    return some (number, parser.anchors)

/-- Notes where an anchor leads to. -/
def close (opened : Option (Nat × Nat)) (node : Node) : Parse Node := do
  match opened with
  | none => return node
  | some (number, place) =>
    modify fun parser => { parser with anchored := ⟨number, place, node⟩ :: parser.anchored }
    return node

/-- A node where there is nothing. -/
def nothing : Parse Node := do
  grow 1
  return .scalar none true []

def readReference (name : List Char) : Parse Node := do
  pass
  grow 1
  match (← get).names.find? fun entry => entry.1 == name with
  | some (_, number) => return .reference number
  | none => failure

/-- A node that is only an anchor or a tag. -/
def bare (name? : Option (List Char)) (tag? : Option Bytes) : Parse Node := do
  if name?.isNone && tag?.isNone then failure
  grow 1
  return .scalar tag? true []

/-- A node, unless one of some tokens is in front. -/
def orNothing (stops : List Token) (node : Parse Node) : Parse Node := do
  if ← at? stops then nothing else node

/-! ### Collections -/

/-- What stands between two elements in brackets. -/
def separate (first : Bool) : Parse Unit := do
  if ! first then expect .comma

mutual

/-- A node.  Block collections may start where `block` holds, and where `inset` holds also a sequence
that is indented no further than its key. -/
def node (block inset : Bool) : Nat → Parse Node
  | 0 => failure
  | n + 1 => do
    match ← peek? with
    | some (.reference name) => readReference name
    | _ =>
      let (name?, tag?) ← properties
      let opened ← open? name?
      let found ← match ← peek?, block, inset with
        | some (.text characters plain), _, _ => do
          pass
          grow 1
          pure (.scalar (if tag? == some [0x21] then none else tag?) plain characters)
        | some .flowSequence, _, _ => do
          pass
          grow 2
          .sequence tag? <$> flowItems true n
        | some .flowMapping, _, _ => do
          pass
          grow 2
          .mapping tag? <$> flowFields true n
        | some .blockSequence, true, _ => do
          pass
          grow 2
          .sequence tag? <$> blockItems n
        | some .blockMapping, true, _ => do
          pass
          grow 2
          .mapping tag? <$> blockFields n
        | some .dash, _, true => do
          grow 2
          .sequence tag? <$> insetItems n
        | _, _, _ => bare name? tag?
      close opened found

/-- Elements behind dashes, up to the end of the block. -/
def blockItems : Nat → Parse (List Node)
  | 0 => failure
  | n + 1 => do
    if ← at? [.blockEnd] then
      pass
      return []
    expect .dash
    let item ← orNothing [.dash, .blockEnd] (node true false n)
    return item :: (← blockItems n)

/-- Elements behind dashes that are indented no further than a key. -/
def insetItems : Nat → Parse (List Node)
  | 0 => failure
  | n + 1 => do
    if ! (← at? [.dash]) then return []
    pass
    let item ← orNothing [.dash, .key, .value, .blockEnd] (node true false n)
    return item :: (← insetItems n)

/-- Fields up to the end of the block. -/
def blockFields : Nat → Parse (List (Node × Node))
  | 0 => failure
  | n + 1 => do
    if ← at? [.blockEnd] then
      pass
      return []
    expect .key
    let key ← orNothing [.key, .value, .blockEnd] (node true true n)
    let item ←
      if ← at? [.value] then do
        pass
        orNothing [.key, .value, .blockEnd] (node true true n)
      else nothing
    return (key, item) :: (← blockFields n)

/-- Elements between brackets.  An element with a key is a mapping with this one field. -/
def flowItems (first : Bool) : Nat → Parse (List Node)
  | 0 => failure
  | n + 1 => do
    if ← at? [.flowSequenceEnd] then
      pass
      return []
    separate first
    if ← at? [.flowSequenceEnd] then
      pass
      return []
    if ← at? [.key] then
      pass
      grow 2
      let key ←
        if ← at? [.value, .comma, .flowSequenceEnd] then do
          -- what follows the mark of a missing key is passed with it
          pass
          nothing
        else node false false n
      let item ← flowValue .flowSequenceEnd n
      return .mapping none [(key, item)] :: (← flowItems false n)
    let item ← node false false n
    return item :: (← flowItems false n)

/-- Fields between brackets.  What has no key mark and no colon is a key alone. -/
def flowFields (first : Bool) : Nat → Parse (List (Node × Node))
  | 0 => failure
  | n + 1 => do
    if ← at? [.flowMappingEnd] then
      pass
      return []
    separate first
    if ← at? [.flowMappingEnd] then
      pass
      return []
    if ← at? [.key] then
      pass
      let key ← orNothing [.value, .comma, .flowMappingEnd] (node false false n)
      let item ← flowValue .flowMappingEnd n
      return (key, item) :: (← flowFields false n)
    let key ← node false false n
    let item ← nothing
    return (key, item) :: (← flowFields false n)

/-- The value of a field between brackets, which may be missing. -/
def flowValue (last : Token) : Nat → Parse Node
  | 0 => failure
  | n + 1 => do
    if ← at? [.value] then
      pass
      orNothing [.comma, last] (node false false n)
    else nothing

end

/-! ### Documents -/

/-- The directives in front of a document. -/
def directives (version? : Bool) : Nat → Parse Unit
  | 0 => return ()
  | n + 1 => do
    match ← peek? with
    | some (.version major minor) =>
      if version? || major != 1 || (minor != 1 && minor != 2) then failure
      pass
      directives true n
    | some (.shorthand handle expansion) =>
      let parser ← get
      if parser.shorthands.any fun entry => entry.1 == handle then failure
      set { parser with shorthands := parser.shorthands ++ [(handle, expansion)] }
      pass
      directives version? n
    | _ => return ()

/-- The short forms that need no directive.  Directives come before them. -/
def usualShorthands : List (List Char × Bytes) :=
  [(['!'], Utf8.encode "!"), (['!', '!'], Utf8.encode "tag:yaml.org,2002:")]

/-- Whether a directive or a mark of a document is in front, or nothing. -/
def atDocumentEdge : Parse Bool := do
  match ← peek? with
  | none | some (.version _ _) | some (.shorthand _ _) | some .documentStart
  | some .documentEnd => return true
  | _ => return false

/-- The node of a document. -/
def content (fuel : Nat) : Parse Node := do
  match ← peek? with
  | some (.version _ _) | some (.shorthand _ _) | some .documentStart =>
    directives false fuel
    modify fun parser => { parser with shorthands := parser.shorthands ++ usualShorthands }
    expect .documentStart
    if ← atDocumentEdge then nothing else node true false fuel
  | _ =>
    modify fun parser => { parser with shorthands := usualShorthands }
    node true false fuel

end Parse

/-- A node, the nodes that its references lead to, and the size of all. -/
structure Document where
  root : Node
  anchored : List Anchored
  size : Nat

/-- The document that tokens make, which is none if there are no tokens.  Nothing but marks of its
end may follow it. -/
def document? (tokens : List Token) : Option (Option Document) := do
  if tokens.isEmpty then return none
  let (root, parser) ← Parse.content (4 * tokens.length + 16) ⟨tokens, [], [], 0, [], 0⟩
  if (parser.tokens.dropWhile (· == .documentEnd)).isEmpty then
    return some ⟨root, parser.anchored, parser.size⟩
  else none

end Yaml

end DirectivePack
