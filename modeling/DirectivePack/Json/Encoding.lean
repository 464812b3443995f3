import DirectivePack.Field.Integer
import DirectivePack.Json.Document
import DirectivePack.Directive
import DirectivePack.Value

/-!
Values and directives as JSON documents.

Integers that fit no 64-bit word become decimal strings, numbers that are not finite become strings,
and bytes that are no text become an object with their hexadecimal digits.
-/

namespace DirectivePack

/-- The text of hexadecimal digits. -/
def Hex.text (bs : Bytes) : String :=
  String.ofList ((Hex.encode bs).map fun d => Char.ofNat d.toNat)

def Value.toJson : Value → Json
  | .integer n => if Field.fits 8 n then .integer n else .string (toString n)
  | .float x => if x.isFinite then .float x else .string x.plainText
  | .bytes bs =>
    match Utf8.decode? bs with
    | some text => .string text
    | none => .object [("hex", .string (Hex.text bs))]

def RawStyle.key : RawStyle → String
  | .nullPadded => "null_padded"
  | .spacePadded => "space_padded"
  | .nullTerminated => "null_terminated"

def DigitOrder.key : DigitOrder → String
  | .highFirst => "high_first"
  | .lowFirst => "low_first"

def Encoding.toJson : Encoding → Json
  | .integer => .string "integer"
  | .float => .string "float"
  | .raw style => .object [("raw_bytes", .string style.key)]
  | .padding => .string "padding"
  | .hexString order => .object [("hex_string", .string order.key)]
  | .bitString order => .object [("bit_string", .string order.key)]
  | .utf8 => .string "utf8_char"
  | .ber => .string "ber_integer"
  | .base64 => .string "base64"

def Directive.toJson (d : Directive) : Json :=
  .object [
    ("directive", .string (String.singleton d.letter)),
    ("kind", d.encoding.toJson),
    ("width", .integer d.width),
    ("signed", .boolean d.signed),
    ("order", .string d.order.key),
    ("native_width", match d.nativeWidth with | some width => .integer width | none => .null),
    ("summary", .string d.summary)]

end DirectivePack
