import DirectivePack.Config.Yaml.Text

/-!
Tokens of YAML files.

Indentation becomes tokens: a block collection starts with a token of its own and ends with
`blockEnd`.  A key needs no mark in front of it, so that something is a key shows only at the colon
behind it.  The reader therefore remembers for each level of brackets what may yet be a key, and
puts the tokens in front of it when the colon comes.  Such a key stays on its line and has 1024
characters at most.

* `tokens?` are the tokens of a whole file.
-/

namespace DirectivePack

namespace Yaml

inductive Token where
  /-- A directive that names the version of the language. -/
  | version (major minor : Nat)
  /-- A directive that gives tags a short form. -/
  | shorthand (handle : List Char) (expansion : Bytes)
  | documentStart
  | documentEnd
  | blockSequence
  | blockMapping
  | blockEnd
  | flowSequence
  | flowSequenceEnd
  | flowMapping
  | flowMappingEnd
  | dash
  | comma
  | key
  | value
  | reference (name : List Char)
  | anchor (name : List Char)
  | tag (handle : List Char) (suffix : Bytes)
  | text (characters : List Char) (plain : Bool)
deriving DecidableEq, Repr

/-! ### Names and tags -/

/-- The name of an anchor, behind its mark. -/
def readName : Scan (List Char) := do
  Scan.skip 1
  let name ← Scan.takeWhile isNameChar
  let behind ← Scan.rest
  if name.isEmpty then failure
  if atGap behind || behind.head?.any "?:,]\x7d%@\x60".toList.contains then return name
  failure

/-- A character of tags.  Commas and brackets are some between angle brackets only. -/
def isTagChar (verbatim : Bool) (c : Char) : Bool :=
  isNameChar c || ";/?:@&=+$.%!~*'()".toList.contains c ||
    (verbatim && (c == ',' || c == '[' || c == ']'))

/-- A percent sign and the two digits of a byte. -/
def readOctet : Scan Nat := do
  Scan.char '%'
  let digits := (← Scan.rest).take 2
  match digits.length == 2, digitsValue? 16 digits with
  | true, some n =>
    Scan.skip 2
    return n
  | _, _ => failure

def readTail : Nat → Scan (List Nat)
  | 0 => return []
  | n + 1 => do
    let octet ← readOctet
    if octet < 0x80 || 0xC0 ≤ octet then failure
    return octet :: (← readTail n)

/-- The bytes of an escaped character.  The first one tells how many there are. -/
def readOctets : Scan Bytes := do
  let lead ← readOctet
  let more ←
    if lead < 0x80 then pure []
    else if lead < 0xC0 then failure
    else if lead < 0xE0 then readTail 1
    else if lead < 0xF0 then readTail 2
    else if lead < 0xF8 then readTail 3
    else failure
  return (lead :: more).map UInt8.ofNat

def readTagCharsUpTo (verbatim : Bool) : Nat → Scan Bytes
  | 0 => return []
  | n + 1 => do
    match ← Scan.peek? with
    | some '%' =>
      let octets ← readOctets
      return octets ++ (← readTagCharsUpTo verbatim n)
    | some c =>
      if ! isTagChar verbatim c then return []
      Scan.skip 1
      return UInt8.ofNat c.toNat :: (← readTagCharsUpTo verbatim n)
    | none => return []

/-- The longest run of characters of a tag. -/
def readTagChars (verbatim : Bool) : Scan Bytes := do
  readTagCharsUpTo verbatim (← Scan.rest).length

/-- The run of characters, which has one at least. -/
def readSomeTagChars (verbatim : Bool) : Scan Bytes := do
  let bytes ← readTagChars verbatim
  if bytes.isEmpty then failure
  return bytes

/-- A tag ends where its first zero byte is. -/
def cutTag (bytes : Bytes) : Bytes :=
  bytes.takeWhile (· != 0)

/-- An exclamation mark, and perhaps a name and another one. -/
def readHandle : Scan (List Char) := do
  Scan.char '!'
  let name ← Scan.takeWhile isNameChar
  if (← Scan.peek?) == some '!' then
    Scan.skip 1
    return '!' :: name ++ ['!']
  return '!' :: name

/-- Whether a handle stands for something else than itself. -/
def isWholeHandle (handle : List Char) : Bool :=
  2 ≤ handle.length && handle.getLast? == some '!'

/-- A tag without the check of what is behind it: between angle brackets, or a handle and a
suffix. -/
def readTagBody : Scan Token := do
  match ← Scan.rest with
  | '!' :: '<' :: _ =>
    Scan.skip 2
    let bytes ← readSomeTagChars true
    Scan.char '>'
    return .tag [] (cutTag bytes)
  | _ =>
    let handle ← readHandle
    if isWholeHandle handle then
      return .tag handle (cutTag (← readSomeTagChars false))
    let name := (handle.drop 1).map fun c => UInt8.ofNat c.toNat
    let suffix := cutTag (name ++ (← readTagChars false))
    return if suffix.isEmpty then .tag [] [0x21] else .tag ['!'] suffix

def readTag (flow : Bool) : Scan Token := do
  let tag ← readTagBody
  let behind ← Scan.rest
  if atGap behind || (flow && behind.head? == some ',') then return tag
  failure

/-! ### Directives -/

/-- A number of nine digits at most. -/
def readVersionNumber : Scan Nat := do
  let digits ← Scan.takeWhile isDigit
  match digitsValue? 10 digits with
  | some n => if digits.length ≤ 9 then return n else failure
  | none => failure

def readDirective : Scan Token := do
  Scan.skip 1
  let name ← Scan.takeWhile isNameChar
  if name.isEmpty || ! atGap (← Scan.rest) then failure
  Scan.skipWhile isSpace
  let token ← match String.ofList name with
    | "YAML" => do
      let major ← readVersionNumber
      Scan.char '.'
      pure (.version major (← readVersionNumber))
    | "TAG" => do
      let handle ← readHandle
      if ! isWholeHandle handle && handle != ['!'] then failure
      if ! (← Scan.peek?).any isSpace then failure
      Scan.skipWhile isSpace
      let expansion ← readSomeTagChars true
      if ! atGap (← Scan.rest) then failure
      pure (.shorthand handle (cutTag expansion))
    | _ => failure
  Scan.finishLine
  return token

/-! ### The reader of tokens -/

/-- Something that is a key if a colon follows. -/
structure PossibleKey where
  /-- Where its line has to hold a key. -/
  required : Bool
  /-- How many tokens there are in front of it. -/
  place : Nat
  index : Nat
  line : Nat
  column : Nat

/-- What is known between two tokens. -/
structure Lexer where
  cursor : Cursor
  /-- The tokens so far, the last one first. -/
  tokens : List Token
  count : Nat
  /-- What may yet be a key. -/
  key? : Option PossibleKey
  /-- The same for the brackets around, from the inside out. -/
  outer : List (Option PossibleKey)
  /-- The columns of the block collections around, from the inside out. -/
  columns : List Nat
  /-- Whether a key may start here. -/
  keyAllowed : Bool

abbrev Lex :=
  StateT Lexer Option

namespace Lexer

def start (text : List Char) : Lexer :=
  ⟨.start text, [], 0, none, [], [], true⟩

/-- Whether the place is between brackets. -/
def inFlow (lexer : Lexer) : Bool :=
  ! lexer.outer.isEmpty

/-- The least column of lines that belong to what is read here. -/
def least (lexer : Lexer) : Nat :=
  match lexer.columns with
  | [] => 0
  | column :: _ => column + 1

/-- The lexer with a token that has `place` tokens in front of it. -/
def insert (lexer : Lexer) (place : Nat) (token : Token) : Lexer :=
  let behind := lexer.count - place
  { lexer with
    tokens := lexer.tokens.take behind ++ token :: lexer.tokens.drop behind
    count := lexer.count + 1 }

def add (lexer : Lexer) (token : Token) : Lexer :=
  { lexer with tokens := token :: lexer.tokens, count := lexer.count + 1 }

end Lexer

namespace Lex

def scan {α : Type} (scan : Scan α) : Lex α := do
  let lexer ← get
  match scan lexer.cursor with
  | none => failure
  | some (a, cursor) =>
    set { lexer with cursor := cursor }
    return a

def allowKey (allowed : Bool) : Lex Unit :=
  modify fun lexer => { lexer with keyAllowed := allowed }

/-- Passes what stands for a token alone. -/
def mark (length : Nat) (token : Token) : Lex Unit := do
  scan (Scan.skip length)
  modify (·.add token)

/-! #### Keys -/

/-- Gives up a key.  Where a key has to be, this refuses the file. -/
def dropped : Option PossibleKey → Lex (Option PossibleKey)
  | some key => if key.required then failure else return none
  | none => return none

def dropKey : Lex Unit := do
  let key? ← dropped (← get).key?
  modify fun lexer => { lexer with key? := key? }

/-- What follows may be a key. -/
def saveKey : Lex Unit := do
  let lexer ← get
  if lexer.keyAllowed then
    dropKey
    let here := lexer.cursor
    let required := ! lexer.inFlow && lexer.columns.head? == some here.column
    modify fun lexer => { lexer with
      key? := some ⟨required, lexer.count, here.index, here.line, here.column⟩ }

/-- A key that ended too long ago is none. -/
def aged (here : Cursor) : Option PossibleKey → Lex (Option PossibleKey)
  | some key =>
    if key.line < here.line || key.index + 1024 < here.index then dropped (some key)
    else return some key
  | none => return none

def ageKeys : Lex Unit := do
  let here := (← get).cursor
  let key? ← aged here (← get).key?
  let outer ← (← get).outer.mapM (aged here)
  modify fun lexer => { lexer with key? := key?, outer := outer }

/-! #### Indentation -/

/-- Opens a block collection if `column` lies further in than those around. -/
def openBlock (column place : Nat) (token : Token) : Lex Unit := do
  let lexer ← get
  if ! lexer.inFlow && lexer.least ≤ column then
    set { lexer.insert place token with columns := column :: lexer.columns }

/-- Closes block collections as long as `inside` holds of their column. -/
def closeBlocks (inside : Nat → Bool) : Lex Unit := do
  let lexer ← get
  if ! lexer.inFlow then
    let closed := lexer.columns.takeWhile inside
    set { lexer with
      tokens := closed.map (fun _ => Token.blockEnd) ++ lexer.tokens
      count := lexer.count + closed.length
      columns := lexer.columns.dropWhile inside }

/-! #### Between tokens -/

/-- Passes blanks, comments and line ends, on at most `n` lines.  A tab passes as a blank only where
no key may start.  A mark of the byte order passes at the start of a line. -/
def skipGap : Nat → Lex Unit
  | 0 => return ()
  | n + 1 => do
    let lexer ← get
    if lexer.cursor.column == 0 && lexer.cursor.rest.head? == some '\uFEFF' then
      scan (Scan.skip 1)
    let tabs := lexer.inFlow || ! lexer.keyAllowed
    scan (Scan.skipWhile fun c => c == ' ' || (tabs && c == '\t'))
    if (← scan Scan.peek?) == some '#' then scan (Scan.skipWhile fun _ => true)
    if (← scan Scan.peek?).any isLineEnd then
      let _ ← scan Scan.lineEnd
      if ! lexer.inFlow then allowKey true
      skipGap n

/-! #### Tokens -/

/-- The end of all collections and keys. -/
def finish : Lex Unit := do
  closeBlocks fun _ => true
  dropKey
  allowKey false

/-- A bracket that opens a collection, which may be a key. -/
def openFlow (token : Token) : Lex Unit := do
  saveKey
  modify fun lexer => { lexer with key? := none, outer := lexer.key? :: lexer.outer }
  allowKey true
  mark 1 token

def closeFlow (token : Token) : Lex Unit := do
  dropKey
  modify fun lexer => match lexer.outer with
    | key? :: outer => { lexer with key? := key?, outer := outer }
    | [] => lexer
  allowKey false
  mark 1 token

/-- The marks of an element and of a key, which open a block collection where there is none. -/
def blockMark (block token : Token) : Lex Unit := do
  let lexer ← get
  if ! lexer.inFlow then
    if ! lexer.keyAllowed then failure
    openBlock lexer.cursor.column lexer.count block
  dropKey
  allowKey (! lexer.inFlow || token == .dash)
  mark 1 token

/-- The colon behind a key. -/
def value : Lex Unit := do
  let lexer ← get
  match lexer.key? with
  | some key =>
    set { lexer.insert key.place .key with key? := none }
    openBlock key.column key.place .blockMapping
    allowKey false
  | none =>
    if ! lexer.inFlow then
      if ! lexer.keyAllowed then failure
      openBlock lexer.cursor.column lexer.count .blockMapping
    allowKey (! lexer.inFlow)
  mark 1 .value

/-- A token that may be a key or stand in front of one. -/
def node (read : Scan Token) : Lex Unit := do
  saveKey
  allowKey false
  let token ← scan read
  modify (·.add token)

def plain : Lex Unit := do
  let lexer ← get
  saveKey
  allowKey false
  let (characters, left) ← scan (readPlain lexer.inFlow lexer.least)
  if left then allowKey true
  modify (·.add (.text characters true))

def block : Lex Unit := do
  dropKey
  allowKey true
  let characters ← scan (readBlock (← get).columns.head?)
  modify (·.add (.text characters false))

/-- Whether a plain text may start here.  A dash, a question mark and a colon may if no gap
follows. -/
def startsPlain (flow : Bool) : List Char → Bool
  | [] => false
  | '-' :: rest => ! rest.head?.any isSpace
  | '?' :: rest | ':' :: rest => ! flow && ! atGap rest
  | c :: _ => ! (isGap c || isFlowMark c || "#&*!|>'\"%@\x60".toList.contains c)

/-- Reads the token in front. -/
def next : Lex Unit := do
  let lexer ← get
  let flow := lexer.inFlow
  let here := lexer.cursor
  match here.rest with
  | [] => finish
  | c :: rest =>
    if here.column == 0 && c == '%' then
      finish
      let token ← scan readDirective
      modify (·.add token)
    else if here.atDocumentMark then
      finish
      mark 3 (if c == '-' then .documentStart else .documentEnd)
    else match c with
      | '[' => openFlow .flowSequence
      | '\x7b' => openFlow .flowMapping
      | ']' => closeFlow .flowSequenceEnd
      | '\x7d' => closeFlow .flowMappingEnd
      | ',' =>
        dropKey
        allowKey true
        mark 1 .comma
      | '*' => node do return .reference (← readName)
      | '&' => node do return .anchor (← readName)
      | '!' => node (readTag flow)
      | '\'' => node do return .text (← readQuoted .single) false
      | '"' => node do return .text (← readQuoted .double) false
      | _ =>
        if c == '-' && atGap rest then blockMark .blockSequence .dash
        else if c == '?' && (flow || atGap rest) then blockMark .blockMapping .key
        else if c == ':' && (flow || atGap rest) then value
        else if ! flow && (c == '|' || c == '>') then block
        else if startsPlain flow here.rest then plain
        else failure

/-- Reads tokens up to the end of the file, at most `n`. -/
def all : Nat → Lex Unit
  | 0 => failure
  | n + 1 => do
    skipGap ((← get).cursor.rest.length + 1)
    ageKeys
    let here := (← get).cursor
    closeBlocks (here.column < ·)
    next
    if ! here.rest.isEmpty then all n

end Lex

/-- The tokens of a file. -/
def tokens? (text : List Char) : Option (List Token) :=
  (Lex.all (text.length + 1) (.start text)).map fun (_, lexer) => lexer.tokens.reverse

end Yaml

end DirectivePack
