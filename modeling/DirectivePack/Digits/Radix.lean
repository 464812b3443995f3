import DirectivePack.Front
import DirectivePack.Digits.Chunks

/-!
Bytes written out as digit characters: hexadecimal digits, two to a byte, and bits, eight to a byte.

Both are one construction over a `Radix`, a base of which a fixed number of digits fills a byte.
Within each byte the digits stand with the high one first or with the low one first.

* `Radix.pack?` refuses a character that is no digit of the radix, and fills the last byte with zero
  digits.
* `Radix.unpack` gives lowercase digits, as many as asked for or as there are.
* `encode` and `decode` are the two sides of plain hexadecimal text.
-/

namespace DirectivePack

/-- Which digit of a byte is written first. -/
inductive DigitOrder where
  | highFirst
  | lowFirst
deriving DecidableEq, Repr

/-- Puts digits given with the high one first into this order, or back. -/
def DigitOrder.arrange {α : Type} : DigitOrder → List α → List α
  | .highFirst, digits => digits
  | .lowFirst, digits => digits.reverse

@[simp] theorem DigitOrder.arrange_arrange {α : Type} (order : DigitOrder) (digits : List α) :
    order.arrange (order.arrange digits) = digits := by
  cases order <;> simp [arrange]

/-! ### Digit characters -/

/-- The value of a digit character, in either case. -/
def digitValue? (b : UInt8) : Option Nat :=
  let n := b.toNat
  if 0x30 ≤ n ∧ n ≤ 0x39 then some (n - 0x30)
  else if 0x61 ≤ n ∧ n ≤ 0x66 then some (n - 0x61 + 10)
  else if 0x41 ≤ n ∧ n ≤ 0x46 then some (n - 0x41 + 10)
  else none

/-- The lowercase digit character of a value below 16; of a greater one, that of its low digit. -/
def digitChar (n : Nat) : UInt8 :=
  let d := n % 16
  UInt8.ofNat (if d < 10 then 0x30 + d else 0x61 + (d - 10))

/-! ### Radices that fill a byte -/

/-- A base, and how many of its digits fill a byte. -/
structure Radix where
  base : Nat
  perByte : Nat
  fills : Nat.pow base perByte = 256

namespace Radix

/-- Two digits to the base 16. -/
def hex : Radix := ⟨16, 2, by decide⟩

/-- Eight digits to the base 2. -/
def bits : Radix := ⟨2, 8, by decide⟩

/-- The value of a character that is a digit of the radix. -/
def value? (radix : Radix) (b : UInt8) : Option Nat :=
  match digitValue? b with
  | some n => if n < radix.base then some n else none
  | none => none

/-- The number that digits make, the high one first. -/
def compose (radix : Radix) (digits : List Nat) : Nat :=
  digits.foldl (fun n d => radix.base * n + d) 0

/-- The low `count` digits of a number, the high one first. -/
def decompose (radix : Radix) : Nat → Nat → List Nat
  | 0, _ => []
  | count + 1, n => decompose radix count (n / radix.base) ++ [n % radix.base]

/-- The byte that a group of digits makes, zeros standing for the ones that are missing. -/
def toByte (radix : Radix) (order : DigitOrder) (group : List Nat) : UInt8 :=
  let full := group ++ List.replicate (radix.perByte - group.length) 0
  UInt8.ofNat (radix.compose (order.arrange full))

/-- The digits of a byte. -/
def ofByte (radix : Radix) (order : DigitOrder) (b : UInt8) : List Nat :=
  order.arrange (radix.decompose radix.perByte b.toNat)

/-- The bytes that digits make. -/
def toBytes (radix : Radix) (order : DigitOrder) (digits : List Nat) : Bytes :=
  (chunks (radix.perByte - 1) digits).map (radix.toByte order)

/-- The digits of some bytes. -/
def ofBytes (radix : Radix) (order : DigitOrder) (bs : Bytes) : List Nat :=
  bs.flatMap (radix.ofByte order)

/-- The values of digit characters, or the first character that is no digit. -/
def values (radix : Radix) : Bytes → Except UInt8 (List Nat)
  | [] => .ok []
  | b :: bs =>
    match radix.value? b with
    | none => .error b
    | some n =>
      match values radix bs with
      | .error bad => .error bad
      | .ok ns => .ok (n :: ns)

/-- How many bytes `count` digits take. -/
def byteCount (radix : Radix) (count : Nat) : Nat :=
  (count + radix.perByte - 1) / radix.perByte

/-- The bytes of the first `count` digit characters, zeros standing for the ones that are missing;
or the first character among them that is no digit. -/
def pack? (radix : Radix) (order : DigitOrder) (count : Nat) (text : Bytes) : Except UInt8 Bytes :=
  match radix.values (text.take count) with
  | .error bad => .error bad
  | .ok digits =>
    .ok (radix.toBytes order (digits ++ List.replicate (count - text.length) 0))

/-- The first `count` digit characters of the bytes, or all there are, and the bytes that none of
these digits stands in. -/
def unpack (radix : Radix) (order : DigitOrder) (count : Nat) (bs : Bytes) : Bytes × Bytes :=
  let size := radix.byteCount count
  (((radix.ofBytes order (bs.take size)).take count).map digitChar, bs.drop size)

end Radix

/-! ### Hexadecimal text -/

namespace Hex

/-- Why a text is not hexadecimal. -/
inductive Fault where
  | oddLength
  /-- A byte that is no digit, and its place. -/
  | badDigit (b : UInt8) (position : Nat)
deriving DecidableEq, Repr

/-- Two lowercase digits for each byte. -/
def encode (bs : Bytes) : Bytes :=
  (Radix.hex.ofBytes .highFirst bs).map digitChar

/-- The bytes of digit pairs, the first of which stands at `position`. -/
def decodePairs (position : Nat) : Bytes → Except Fault Bytes
  | a :: b :: rest =>
    match digitValue? a, digitValue? b with
    | none, _ => .error (.badDigit a position)
    | _, none => .error (.badDigit b (position + 1))
    | some high, some low =>
      match decodePairs (position + 2) rest with
      | .error fault => .error fault
      | .ok bs => .ok (UInt8.ofNat (16 * high + low) :: bs)
  | _ => .ok []

/-- The bytes of hexadecimal text.  An odd number of digits is reported before anything else. -/
def decode (text : Bytes) : Except Fault Bytes :=
  if text.length % 2 = 1 then .error .oddLength else decodePairs 0 text

end Hex

end DirectivePack
