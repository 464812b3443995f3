import DirectivePack.Text.Numeral
import DirectivePack.Text.Utf8

/-!
Readers: what stands at the front of a text becomes a value, and a text that starts with something
else is refused.

A reader that is tried and refuses leaves the text as it was.  Repetition is bounded by the number
of characters that are left, and nesting by a depth that whoever reads a nested form hands down, so
every reader ends.
-/

namespace DirectivePack

/-- Reads a value from the front of a text, or refuses the text. -/
abbrev Reader :=
  StateT (List Char) Option

namespace Reader

variable {α β : Type}

/-! ### Characters -/

/-- The next character, which is left where it is. -/
def peek? : Reader (Option Char) := do
  return (← get).head?

/-- The next character. -/
def next : Reader Char := do
  match ← get with
  | [] => failure
  | c :: rest =>
    set rest
    return c

/-- The next character, if it has a property. -/
def satisfying (p : Char → Bool) : Reader Char := do
  let c ← next
  if p c then return c else failure

def char (c : Char) : Reader Unit := do
  let _ ← satisfying (· == c)

/-- The given text. -/
def literal (text : String) : Reader Unit :=
  text.toList.forM char

/-- The longest run of characters with a property, which may be empty. -/
def takeWhile (p : Char → Bool) : Reader (List Char) := do
  let text ← get
  set (text.dropWhile p)
  return text.takeWhile p

/-- A run of characters with a property, at least one. -/
def takeWhileOne (p : Char → Bool) : Reader (List Char) := do
  match ← takeWhile p with
  | [] => failure
  | run => return run

def skipWhile (p : Char → Bool) : Reader Unit := do
  let _ ← takeWhile p

/-! ### Choice and repetition -/

/-- The value if there is one. -/
def optional (p : Reader α) : Reader (Option α) :=
  (some <$> p) <|> pure none

/-- At most `n` values, as many as there are. -/
def atMost (p : Reader α) : Nat → Reader (List α)
  | 0 => pure []
  | n + 1 => do
    match ← optional p with
    | none => return []
    | some a => return a :: (← atMost p n)

/-- As many values as there are. -/
def many (p : Reader α) : Reader (List α) := do
  atMost p (← get).length

/-- Exactly `n` values. -/
def exactly (p : Reader α) : Nat → Reader (List α)
  | 0 => pure []
  | n + 1 => do
    let a ← p
    return a :: (← exactly p n)

/-- Values with a separator between each two, at least one. -/
def separated (p : Reader α) (separator : Reader β) : Reader (List α) := do
  let first ← p
  let others ← many (do let _ ← separator; p)
  return first :: others

/-! ### A whole text -/

/-- The value that the whole text stands for. -/
def whole? (p : Reader α) (text : List Char) : Option α :=
  match p text with
  | some (a, []) => some a
  | _ => none

/-! ### Escapes by number -/

/-- The number that exactly `n` digits to the base 16 make. -/
def hexNumber (n : Nat) : Reader Nat := do
  match digitsValue? 16 (← exactly next n) with
  | some value => return value
  | none => failure

/-- The character whose number `n` digits to the base 16 make. -/
def hexChar (n : Nat) : Reader Char := do
  match charOfNumber? (← hexNumber n) with
  | some c => return c
  | none => failure

end Reader

end DirectivePack
