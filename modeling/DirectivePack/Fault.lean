import DirectivePack.Value
import DirectivePack.Base64
import DirectivePack.Digits.Radix
import DirectivePack.Field.Integer
import DirectivePack.Text.Quoted

/-!
What can go wrong with a directive string, with the values given to it, and with the bytes read
by it.

The constructors of `Fault` are the causes.  The first two blame the directive string and carry
places in it, counted in bytes of its UTF-8 form; the next three come from packing, the last two from
unpacking.  All wording is in the `message` functions.
-/

namespace DirectivePack

/-- Why a directive string is ill-formed at some place. -/
inductive FormatReason where
  /-- A modifier, a digit or a star that no directive stands before. -/
  | stray (mark : Char)
  /-- A modifier that the directive before it does not take. -/
  | modifierNotAllowed (mark : Char)
  /-- Both order modifiers on one directive. -/
  | bothOrders
  | countTooLarge
  /-- A reason stated by a caller. -/
  | stated (text : String)
deriving DecidableEq, Repr

def FormatReason.message : FormatReason → String
  | .stray mark => s!"'{mark}' must follow a directive"
  | .modifierNotAllowed mark => s!"'{mark}' allowed only after types sSiIlLqQjJ"
  | .bothOrders => "can't use both '<' and '>'"
  | .countTooLarge => "count too large"
  | .stated text => text

/-- Why a directive cannot represent a value. -/
inductive ValueReason where
  | outOfRange (n : Int) (width : Nat)
  | outOfSingleRange (x : Binary64)
  | badHexDigit (b : UInt8)
  | badBitDigit (b : UInt8)
  | badCodePoint (n : Int)
  /-- A negative number under a directive for numbers from zero on. -/
  | negative
  /-- A reason stated by a caller. -/
  | stated (text : String)
deriving DecidableEq, Repr

def ValueReason.message : ValueReason → String
  | .outOfRange n width =>
    let (least, greatest) := Field.integerRange width
    s!"{n} out of range [{least}, {greatest}]"
  | .outOfSingleRange x => s!"{x.plainText} out of single precision range"
  | .badHexDigit b => s!"invalid hex digit {Quoted.byte b}"
  | .badBitDigit b => s!"invalid bit digit {Quoted.byte b}"
  | .badCodePoint n => s!"invalid code point {n}"
  | .negative => "can't compress negative numbers"
  | .stated text => text

/-- Why bytes are no value of a directive. -/
inductive DataReason where
  /-- A byte that starts no character. -/
  | badLeadByte (lead : UInt8)
  | badUtf8
  /-- A compressed integer beyond 128 bits. -/
  | beyond128Bits
  /-- A compressed integer beyond the signed integers of 128 bits. -/
  | beyondSigned128Bits
  | base64 (fault : Base64.Fault)
  /-- A reason stated by a caller. -/
  | stated (text : String)
deriving DecidableEq, Repr

/-- A byte as two uppercase hexadecimal digits. -/
def upperHex (b : UInt8) : String :=
  String.ofList ((Hex.encode [b]).map fun d => (Char.ofNat d.toNat).toUpper)

def DataReason.message : DataReason → String
  | .badLeadByte lead => s!"invalid UTF-8 lead byte 0x{upperHex lead}"
  | .badUtf8 => "invalid UTF-8 sequence"
  | .beyond128Bits => "value exceeds 128 bits"
  | .beyondSigned128Bits => "value exceeds signed 128-bit range"
  | .base64 fault => fault.message
  | .stated text => text

/-- What can go wrong. -/
inductive Fault where
  /-- The directive string is ill-formed. -/
  | format (position : Nat) (reason : FormatReason)
  /-- A character of the directive string is no directive. -/
  | unknownDirective (letter : Char) (position : Option Nat)
  /-- Too few values are left. -/
  | missingValues (letter : Char) (needed available : Nat)
  /-- A value is of the wrong kind. -/
  | wrongKind (letter : Char) (expected actual : ValueKind)
  /-- A value of the right kind cannot be represented. -/
  | unencodable (letter : Char) (reason : ValueReason)
  /-- Too few bytes are left. -/
  | truncated (letter : Char) (needed available : Nat)
  /-- The bytes are no value of the directive. -/
  | malformed (letter : Char) (reason : DataReason)
deriving DecidableEq, Repr

namespace Fault

/-- The fault in words. -/
def message : Fault → String
  | .format position reason => s!"Format error at offset {position}: {reason.message}"
  | .unknownDirective letter none => s!"Unknown directive '{letter}'"
  | .unknownDirective letter (some position) =>
    s!"Unknown directive '{letter}' at offset {position}"
  | .missingValues letter needed available =>
    s!"Too few arguments for '{letter}': needed {needed}, {available} remaining"
  | .wrongKind letter expected actual =>
    s!"Type mismatch for '{letter}': expected {expected.name}, got {actual.name}"
  | .unencodable letter reason => s!"Encoding error for '{letter}': {reason.message}"
  | .truncated letter needed available =>
    s!"Truncated data for '{letter}': needed {needed} bytes, {available} available"
  | .malformed letter reason => s!"Malformed data for '{letter}': {reason.message}"

/-- Adds the place to a fault about an unknown directive, and leaves every other fault. -/
def atPosition (position : Nat) : Fault → Fault
  | .unknownDirective letter _ => .unknownDirective letter (some position)
  | fault => fault

/-- Whether the directive string is to blame. -/
def blamesFormat : Fault → Bool
  | .format .. | .unknownDirective .. => true
  | _ => false

end Fault

end DirectivePack
