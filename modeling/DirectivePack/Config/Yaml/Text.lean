import DirectivePack.Config.Yaml.Cursor

/-!
Texts in YAML files: plain, between quotes, and in blocks.

Plain and quoted texts may go over several lines.  What lies between two of their words is a `Gap`:
blanks stand for themselves, and a line end with the blanks around it stands for a space, or for
the line ends that follow it at once.

A block holds the lines that are indented below its header.  Their line ends stand for themselves,
or fold as in plain texts, and the header says which line ends at the end of the block count.
-/

namespace DirectivePack

namespace Yaml

/-! ### Gaps -/

/-- What lies between two words: blanks on one line, or a line end and further line ends. -/
structure Gap where
  blanks : List Char
  lineEnd? : Option (List Char)
  further : List Char

namespace Gap

def empty : Gap :=
  ⟨[], none, []⟩

/-- The gap that a line end behind a backslash opens.  It stands for nothing by itself. -/
def joint : Gap :=
  ⟨[], some [], []⟩

/-- What the gap stands for. -/
def text (gap : Gap) : List Char :=
  match gap.lineEnd? with
  | none => gap.blanks
  | some ['\n'] => if gap.further.isEmpty then [' '] else gap.further
  | some first => first ++ gap.further

/-- Reads on in a gap, at most `n` characters.  Behind a line end, a tab in front of the column
`least` is refused. -/
def read (least : Nat) : Nat → Gap → Scan Gap
  | 0, gap => return gap
  | n + 1, gap => do
    let here ← get
    match here.rest with
    | [] => return gap
    | c :: _ =>
      if isSpace c then
        if gap.lineEnd?.isSome && c == '\t' && here.column < least then failure
        Scan.skip 1
        read least n (if gap.lineEnd?.isSome then gap else { gap with blanks := gap.blanks ++ [c] })
      else if isLineEnd c then
        let stood ← Scan.lineEnd
        read least n <| match gap.lineEnd? with
          | none => ⟨[], some stood, []⟩
          | some _ => { gap with further := gap.further ++ stood }
      else return gap

end Gap

/-! ### Plain texts -/

/-- The word in front.  It ends at a gap, at a colon with a gap behind it, and between brackets at a
bracket or comma, where a colon must not touch a mark. -/
def word? (flow : Bool) : List Char → Option (List Char)
  | [] => some []
  | c :: rest =>
    if isGap c || (flow && isFlowMark c) then some []
    else if c == ':' && flow && rest.head?.any (fun d => isFlowMark d || d == '?') then none
    else if c == ':' && atGap rest then some []
    else (word? flow rest).map (c :: ·)

def readWord (flow : Bool) : Scan (List Char) := do
  match word? flow (← Scan.rest) with
  | none => failure
  | some word =>
    Scan.skip word.length
    return word

/-- What follows the first word of a plain text, and whether a line end lies between the text and
what is in front then.  Lines that go on with the text are indented by `least` at least, unless it
stands between brackets. -/
def readMoreWords (flow : Bool) (least : Nat) : Nat → Scan (List Char × Bool)
  | 0 => return ([], false)
  | n + 1 => do
    let gap ← Gap.read least (← Scan.rest).length .empty
    let here ← get
    let left := gap.lineEnd?.isSome
    if (! flow && here.column < least) || here.atDocumentMark || here.rest.head? == some '#' then
      return ([], left)
    let word ← readWord flow
    if word.isEmpty then return ([], left)
    let (more, left) ← readMoreWords flow least n
    return (gap.text ++ word ++ more, left)

/-- A plain text, and whether a line end lies behind it. -/
def readPlain (flow : Bool) (least : Nat) : Scan (List Char × Bool) := do
  let first ← readWord flow
  let (more, left) ← readMoreWords flow least (← Scan.rest).length
  return (first ++ more, left)

/-! ### Quoted texts -/

/-- The character whose number `n` digits to the base 16 make. -/
def readNumbered (n : Nat) : Scan Char := do
  let digits := (← Scan.rest).take n
  match digits.length == n, (digitsValue? 16 digits).bind charOfNumber? with
  | true, some c =>
    Scan.skip n
    return c
  | _, _ => failure

/-- What is behind a backslash. -/
def readEscaped : Scan Char := do
  let mark? ← Scan.peek?
  Scan.skip 1
  match mark? with
  | some '0' => return '\x00'
  | some 'a' => return '\x07'
  | some 'b' => return '\x08'
  | some 't' | some '\t' => return '\t'
  | some 'n' => return '\n'
  | some 'v' => return '\x0b'
  | some 'f' => return '\x0c'
  | some 'r' => return '\r'
  | some 'e' => return '\x1b'
  | some ' ' => return ' '
  | some '"' => return '"'
  | some '/' => return '/'
  | some '\\' => return '\\'
  | some 'N' => return '\u0085'
  | some '_' => return '\u00a0'
  | some 'L' => return '\u2028'
  | some 'P' => return '\u2029'
  | some 'x' => readNumbered 2
  | some 'u' => readNumbered 4
  | some 'U' => readNumbered 8
  | _ => failure

/-- The quotes around texts. -/
inductive Quote where
  /-- Only the quote itself is escaped, by writing it twice. -/
  | single
  /-- Backslashes escape. -/
  | double
deriving DecidableEq, Repr

def Quote.char : Quote → Char
  | .single => '\''
  | .double => '"'

/-- The characters up to the next gap or quote, and whether a backslash in front of a line end ends
them. -/
def readQuotedWord (quote : Quote) : Nat → Scan (List Char × Bool)
  | 0 => return ([], false)
  | n + 1 => do
    match quote, ← Scan.rest with
    | _, [] => return ([], false)
    | .single, '\'' :: '\'' :: _ =>
      Scan.skip 2
      let (more, joint) ← readQuotedWord quote n
      return ('\'' :: more, joint)
    | .double, '\\' :: rest =>
      Scan.skip 1
      if rest.head?.any isLineEnd then
        let _ ← Scan.lineEnd
        return ([], true)
      let c ← readEscaped
      let (more, joint) ← readQuotedWord quote n
      return (c :: more, joint)
    | quote, c :: _ =>
      if isGap c || c == quote.char then return ([], false)
      Scan.skip 1
      let (more, joint) ← readQuotedWord quote n
      return (c :: more, joint)

/-- A quoted text behind its first quote, with at most `n` gaps. -/
def readQuotedRest (quote : Quote) : Nat → Scan (List Char)
  | 0 => failure
  | n + 1 => do
    let here ← get
    if here.atDocumentMark || here.rest.isEmpty then failure
    let (word, joint) ← readQuotedWord quote here.rest.length
    if (← Scan.peek?) == some quote.char then
      Scan.skip 1
      return word
    let gap ← Gap.read 0 here.rest.length (if joint then .joint else .empty)
    let more ← readQuotedRest quote n
    return word ++ gap.text ++ more

def readQuoted (quote : Quote) : Scan (List Char) := do
  Scan.skip 1
  readQuotedRest quote ((← Scan.rest).length + 1)

/-! ### Blocks of text -/

/-- Which line ends at the end of a block count: the first, none, or all. -/
inductive Chomp where
  | clip
  | strip
  | keep
deriving DecidableEq, Repr

/-- What the header of a block says.  An indentation counts from that of the lines around. -/
structure BlockHeader where
  folded : Bool
  chomp : Chomp
  indent? : Option Nat

def readChomp : Scan (Option Chomp) := do
  match ← Scan.peek? with
  | some '+' =>
    Scan.skip 1
    return some .keep
  | some '-' =>
    Scan.skip 1
    return some .strip
  | _ => return none

/-- The digit of an indentation, which is not zero. -/
def readIndent : Scan (Option Nat) := do
  match ← Scan.peek? with
  | some c =>
    if ! isDigit c then return none
    if c == '0' then failure
    Scan.skip 1
    return some (c.toNat - '0'.toNat)
  | none => return none

def readBlockHeader : Scan BlockHeader := do
  let folded := (← Scan.peek?) == some '>'
  Scan.skip 1
  let early ← readChomp
  let indent? ← readIndent
  let late ← match early with
    | none => if indent?.isSome then readChomp else pure none
    | some _ => pure none
  Scan.finishLine
  return ⟨folded, (early.or late).getD .clip, indent?⟩

/-- Passes the indentation of the next line that is not empty: the line ends on the way, and the
greatest indentation seen.  No more than `indent` blanks of a line belong to it; 0 says that all
do. -/
def readIndentation (indent : Nat) : Nat → Nat → Scan (List Char × Nat)
  | 0, greatest => return ([], greatest)
  | n + 1, greatest => do
    let before ← get
    let spaces := (before.rest.takeWhile (· == ' ')).length
    Scan.skip (if indent == 0 then spaces else min spaces (indent - before.column))
    let here ← get
    let greatest := max greatest here.column
    if (indent == 0 || here.column < indent) && here.rest.head? == some '\t' then failure
    if ! here.rest.isEmpty && atLineEnd here.rest then
      let stood ← Scan.lineEnd
      let (more, greatest) ← readIndentation indent n greatest
      return (stood ++ more, greatest)
    return ([], greatest)

/-- Lines of a block, from the first that is not empty.  `lineEnd` and `empty` are the line end and
the empty lines in front of them, and `inset` says whether the line before started with a blank.
The last line end and the empty lines behind it are told apart from the rest. -/
def readBlockLines (folded : Bool) (indent : Nat) :
    Nat → List Char → List Char → Bool → Scan (List Char × List Char × List Char)
  | 0, lineEnd, empty, _ => return ([], lineEnd, empty)
  | n + 1, lineEnd, empty, inset => do
    let here ← get
    match here.column == indent, here.rest with
    | true, c :: _ =>
      let between : List Char :=
        if folded && lineEnd == ['\n'] && ! inset && ! isSpace c then
          if empty.isEmpty then [' '] else []
        else lineEnd
      let line ← Scan.takeWhile fun _ => true
      let stood ← Scan.lineEnd
      let (further, _) ← readIndentation indent here.rest.length 0
      let (more, last) ← readBlockLines folded indent n stood further (isSpace c)
      return (between ++ empty ++ line ++ more, last)
    | _, _ => return ([], lineEnd, empty)

/-- A block of text.  `around?` is the indentation of what it stands in. -/
def readBlock (around? : Option Nat) : Scan (List Char) := do
  let header ← readBlockHeader
  let told := match header.indent? with
    | some n => around?.getD 0 + n
    | none => 0
  let (empty, greatest) ← readIndentation told ((← Scan.rest).length + 1) 0
  let least := match around? with
    | some n => n + 1
    | none => 1
  let indent := if told == 0 then max greatest least else told
  let (content, lineEnd, further) ←
    readBlockLines header.folded indent (← Scan.rest).length [] empty false
  return content ++
    match header.chomp with
    | .strip => []
    | .clip => lineEnd
    | .keep => lineEnd ++ further

end Yaml

end DirectivePack
