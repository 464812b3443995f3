import DirectivePack.ByteOrder
import DirectivePack.Field.Raw
import DirectivePack.Digits.Radix

/-!
The directives: one letter each, with what it encodes, its width, its sign and its byte order.

* `Directive.find?_letter`: every directive of the table is the one found under its letter.
-/

namespace DirectivePack

/-- What a directive encodes. -/
inductive Encoding where
  | integer
  | float
  | raw (style : RawStyle)
  | padding
  | hexString (order : DigitOrder)
  | bitString (order : DigitOrder)
  | utf8
  | ber
  | base64
deriving DecidableEq, Repr

/-- Whether a count repeats an element of fixed width. -/
def Encoding.isFixedWidthNumeric : Encoding → Bool
  | .integer | .float => true
  | _ => false

/-- The padding byte of a raw byte string. -/
def Encoding.padByte? : Encoding → Option UInt8
  | .raw style => some style.padByte
  | _ => none

/-- A directive. -/
structure Directive where
  letter : Char
  encoding : Encoding
  /-- Bytes in an element; `0` where elements have no fixed width. -/
  width : Nat
  signed : Bool
  order : ByteOrder
  /-- The width under a native-width modifier, for a directive that takes modifiers. -/
  nativeWidth : Option Nat
  /-- What the directive encodes, in a few words. -/
  summary : String
deriving DecidableEq, Repr

namespace Directive

/-- Whether `<` and `>` may follow the letter. -/
def acceptsOrder (d : Directive) : Bool :=
  d.nativeWidth.isSome

/-- Whether `_` and `!` may follow the letter. -/
def acceptsNativeWidth (d : Directive) : Bool :=
  d.nativeWidth.isSome

/-! ### The table -/

/-- An integer of fixed width and order. -/
def fixedInteger (letter : Char) (width : Nat) (signed : Bool) (order : ByteOrder)
    (summary : String) : Directive :=
  ⟨letter, .integer, width, signed, order, none, summary⟩

/-- An integer in host order that takes modifiers. -/
def hostInteger (letter : Char) (width native : Nat) (signed : Bool) (summary : String) :
    Directive :=
  ⟨letter, .integer, width, signed, .native, some native, summary⟩

def floating (letter : Char) (width : Nat) (order : ByteOrder) (summary : String) : Directive :=
  ⟨letter, .float, width, false, order, none, summary⟩

/-- A directive without fixed width. -/
def unsized (letter : Char) (encoding : Encoding) (summary : String) : Directive :=
  ⟨letter, encoding, 0, false, .native, none, summary⟩

/-- All directives, in the order in which they are listed. -/
def table : List Directive := [
  fixedInteger 'c' 1 true .native "signed 8-bit integer",
  fixedInteger 'C' 1 false .native "unsigned 8-bit integer",
  hostInteger 's' 2 2 true "signed 16-bit integer",
  hostInteger 'S' 2 2 false "unsigned 16-bit integer",
  hostInteger 'i' 4 4 true "signed int",
  hostInteger 'I' 4 4 false "unsigned int",
  hostInteger 'l' 4 8 true "signed 32-bit integer",
  hostInteger 'L' 4 8 false "unsigned 32-bit integer",
  hostInteger 'q' 8 8 true "signed 64-bit integer",
  hostInteger 'Q' 8 8 false "unsigned 64-bit integer",
  hostInteger 'j' 8 8 true "signed pointer-width integer",
  hostInteger 'J' 8 8 false "unsigned pointer-width integer",
  fixedInteger 'n' 2 false .big "16-bit network order",
  fixedInteger 'N' 4 false .big "32-bit network order",
  fixedInteger 'v' 2 false .little "16-bit little-endian",
  fixedInteger 'V' 4 false .little "32-bit little-endian",
  floating 'f' 4 .native "single precision, native order",
  floating 'F' 4 .native "single precision, native order",
  floating 'd' 8 .native "double precision, native order",
  floating 'D' 8 .native "double precision, native order",
  floating 'e' 4 .little "single precision, little-endian",
  floating 'E' 8 .little "double precision, little-endian",
  floating 'g' 4 .big "single precision, big-endian",
  floating 'G' 8 .big "double precision, big-endian",
  unsized 'a' (.raw .nullPadded) "byte string, null padded",
  unsized 'A' (.raw .spacePadded) "byte string, space padded",
  unsized 'Z' (.raw .nullTerminated) "null-terminated byte string",
  unsized 'H' (.hexString .highFirst) "hex string, high nibble first",
  unsized 'h' (.hexString .lowFirst) "hex string, low nibble first",
  unsized 'B' (.bitString .highFirst) "bit string, MSB first",
  unsized 'b' (.bitString .lowFirst) "bit string, LSB first",
  unsized 'U' .utf8 "UTF-8 character",
  unsized 'w' .ber "BER compressed integer",
  unsized 'm' .base64 "base64 encoded string",
  ⟨'x', .padding, 1, false, .native, none, "null byte"⟩]

/-- The directive with this letter. -/
def find? (letter : Char) : Option Directive :=
  table.find? fun d => d.letter == letter

theorem find?_letter : ∀ d ∈ table, find? d.letter = some d := by
  decide

theorem mem_table_of_find? {letter : Char} {d : Directive} (found : find? letter = some d) :
    d ∈ table ∧ d.letter = letter := by
  refine ⟨List.mem_of_find?_eq_some found, ?_⟩
  simpa using List.find?_some found

end Directive

end DirectivePack
