import DirectivePack.Value
import DirectivePack.Digits.Radix
import DirectivePack.Text.Blank
import DirectivePack.Text.Numeral
import DirectivePack.Text.Quoted

/-!
Values written as command-line arguments, and packed bytes written out.

An argument is tried as marked text, as marked hexadecimal digits, as an integer and, if it looks
numeric, as a double, in this order; what is none of these is text.

* `ofArgument_text`: a text marked with `str:` stands for itself, whatever it is.
-/

namespace DirectivePack

/-- Why an argument stands for no value. -/
structure BadArgument where
  argument : String
  reason : Hex.Fault
deriving DecidableEq, Repr

def Hex.Fault.message : Hex.Fault → String
  | .oddLength => "Odd number of digits"
  | .badDigit b position => s!"Invalid character {Quoted.byte b} at position {position}"

/-- What is behind a leading text. -/
def afterMark? (mark s : List Char) : Option (List Char) :=
  if mark.isPrefixOf s then some (s.drop mark.length) else none

/-! ### Integers -/

/-- The number of decimal digits, or of digits to the base 16 after `0x`. -/
def magnitudeOfText? : List Char → Option Nat
  | '0' :: 'x' :: digits | '0' :: 'X' :: digits => digitsValue? 16 digits
  | digits => digitsValue? 10 digits

/-- An integer with an optional sign, of which the magnitude is below `2 ^ 127`. -/
def integerOfText? (text : List Char) : Option Int :=
  let (negative, body) := takeSign text
  match magnitudeOfText? body with
  | some n => if n < Nat.pow 2 127 then some (if negative then -n else n) else none
  | none => none

/-! ### Numbers with a point or an exponent -/

/-- Whether a digit or a point is first behind all the signs.  Words like `inf` and `nan` do not look
like numbers. -/
def looksNumeric (text : List Char) : Bool :=
  match text.dropWhile fun c => c == '-' || c == '+' with
  | c :: _ => isDigit c || c == '.'
  | [] => false

/-! ### Arguments -/

/-- The value of an argument without a mark. -/
def Value.ofUnmarked (argument : String) : Value :=
  let chars := argument.toList
  match integerOfText? chars, if looksNumeric chars then doubleOfText? chars else none with
  | some n, _ => .integer n
  | none, some x => .float x
  | none, none => .text argument

/-- The value of an argument. -/
def Value.ofArgument (argument : String) : Except BadArgument Value :=
  let chars := argument.toList
  match afterMark? "str:".toList chars, afterMark? "hex:".toList chars with
  | some text, _ => .ok (.text (String.ofList text))
  | none, some digits =>
    match Hex.decode (Utf8.encode (String.ofList digits)) with
    | .ok bs => .ok (.bytes bs)
    | .error reason => .error ⟨argument, reason⟩
  | none, none => .ok (.ofUnmarked argument)

/-- The values of arguments, or the first one that stands for none. -/
def Value.ofArguments : List String → Except BadArgument (List Value)
  | [] => .ok []
  | argument :: arguments =>
    match Value.ofArgument argument with
    | .error bad => .error bad
    | .ok v =>
      match Value.ofArguments arguments with
      | .error bad => .error bad
      | .ok vs => .ok (v :: vs)

theorem Value.ofArgument_text (text : List Char) :
    Value.ofArgument (String.ofList ("str:".toList ++ text)) = .ok (.text (String.ofList text)) := by
  have marked : afterMark? "str:".toList ("str:".toList ++ text) = some text := by
    simp [afterMark?]
  simp only [Value.ofArgument, String.toList_ofList, marked]

/-- The bytes of hexadecimal digits with blanks anywhere between them. -/
def Hex.decodeSpaced (argument : String) : Except BadArgument Bytes :=
  let digits := argument.toList.filter fun c => ! isBlank c
  match Hex.decode (Utf8.encode (String.ofList digits)) with
  | .ok bs => .ok bs
  | .error reason => .error ⟨argument, reason⟩

/-! ### Packed bytes -/

/-- How packed bytes and tables are written out. -/
inductive OutputForm where
  | hex
  | raw
  | json
deriving DecidableEq, Repr

namespace OutputForm

/-- The form under its name. -/
def ofName? : String → Option OutputForm
  | "hex" => some .hex
  | "raw" => some .raw
  | "json" => some .json
  | _ => none

def name : OutputForm → String
  | .hex => "hex"
  | .raw => "raw"
  | .json => "json"

/-- Packed bytes as a line of digits, as they are, or as a line with an array of numbers. -/
def render (bs : Bytes) : OutputForm → Bytes
  | .hex => Hex.encode bs ++ [0x0A]
  | .raw => bs
  | .json =>
    Utf8.encode ("[" ++ ",".intercalate (bs.map fun b => b.toNat.repr) ++ "]\n")

end OutputForm

end DirectivePack
