import DirectivePack.Digits.Radix
import DirectivePack.Float.Decimal

/-!
Numbers written with digits.

* `digitsValue?` reads digits to a base and refuses anything else.
* `decimalOfText?` reads a decimal number with an optional point and exponent as the nearest double.
* `doubleOfText?` reads the words for infinities and NaNs as well.
-/

namespace DirectivePack

/-- The value of a digit character below `base`, in either case. -/
def digitBelow? (base : Nat) (c : Char) : Option Nat :=
  if c.toNat < 0x80 then
    match digitValue? (UInt8.ofNat c.toNat) with
    | some d => if d < base then some d else none
    | none => none
  else none

/-- A number with one more digit character behind it, if the character is a digit. -/
def appendDigit? (base : Nat) (sofar : Option Nat) (c : Char) : Option Nat :=
  match sofar, digitBelow? base c with
  | some n, some d => some (base * n + d)
  | _, _ => none

/-- The number that digit characters make, if they all are digits below `base` and there is one. -/
def digitsValue? (base : Nat) : List Char → Option Nat
  | [] => none
  | text => text.foldl (appendDigit? base) (some 0)

/-- An optional sign: whether it is negative, and what follows. -/
def takeSign : List Char → Bool × List Char
  | '-' :: rest => (true, rest)
  | '+' :: rest => (false, rest)
  | text => (false, text)

def isDigit (c : Char) : Bool :=
  '0' ≤ c && c ≤ '9'

/-- The exponent of a decimal number: nothing, or `e` with an integer. -/
def exponentOfText? : List Char → Option Int
  | [] => some 0
  | mark :: rest =>
    if mark = 'e' ∨ mark = 'E' then
      let (negative, digits) := takeSign rest
      match digitsValue? 10 digits with
      | some n => some (if negative then -n else n)
      | none => none
    else none

/-- The digits in front of a point, the digits behind it, and what follows.  Without a point none
are behind it. -/
def takeMantissa (text : List Char) : List Char × List Char × List Char :=
  let whole := text.takeWhile isDigit
  match text.dropWhile isDigit with
  | '.' :: rest => (whole, rest.takeWhile isDigit, rest.dropWhile isDigit)
  | rest => (whole, [], rest)

/-- A decimal number: digits with an optional point, at least one digit, and an optional exponent;
an optional sign before it. -/
def decimalOfText? (text : List Char) : Option Binary64 :=
  let (negative, body) := takeSign text
  let (whole, fraction, rest) := takeMantissa body
  match digitsValue? 10 (whole ++ fraction), exponentOfText? rest with
  | some digits, some exponent =>
    some (.ofDecimal negative digits (exponent - fraction.length))
  | _, _ => none

/-- The magnitude of an infinity or a NaN by its word, in any case. -/
def magnitudeOfWord? (word : List Char) : Option Nat :=
  let format := FloatFormat.binary64
  let lower := word.map Char.toLower
  if lower = "inf".toList ∨ lower = "infinity".toList then some format.infinity
  else if lower = "nan".toList then
    some (format.infinity + Nat.pow 2 (format.fractionBits - 1))
  else none

/-- A double: a decimal number, or the word for an infinity or a NaN with an optional sign before
it. -/
def doubleOfText? (text : List Char) : Option Binary64 :=
  let (negative, body) := takeSign text
  match magnitudeOfWord? body with
  | some magnitude => some (.ofPattern (FloatFormat.binary64.withSign negative magnitude))
  | none => decimalOfText? text

end DirectivePack
