import DirectivePack.Front
import DirectivePack.Digits.Chunks

/-!
Base64: three bytes as four symbols of six bits, with `=` where the last group is short.

There are two readers.  The strict one takes a whole text and accepts the padded form alone.  The
lenient one takes a segment from the front: it skips what is no symbol, ends behind the first run
of `=` and a line break, and drops the bits that make no byte.

* `encode_length`: the padded form has four symbols for each group.
-/

namespace DirectivePack.Base64

/-! ### The alphabet -/

/-- The padding byte, `=`. -/
def pad : UInt8 := 0x3D

/-- The symbol of a value below 64. -/
def symbol (n : Nat) : UInt8 :=
  UInt8.ofNat <|
    if n < 26 then 0x41 + n
    else if n < 52 then 0x61 + (n - 26)
    else if n < 62 then 0x30 + (n - 52)
    else if n = 62 then 0x2B
    else 0x2F

/-- The value of a symbol. -/
def sextet? (b : UInt8) : Option Nat :=
  let n := b.toNat
  if 0x41 ≤ n ∧ n ≤ 0x5A then some (n - 0x41)
  else if 0x61 ≤ n ∧ n ≤ 0x7A then some (n - 0x61 + 26)
  else if 0x30 ≤ n ∧ n ≤ 0x39 then some (n - 0x30 + 52)
  else if n = 0x2B then some 62
  else if n = 0x2F then some 63
  else none

def isSymbol (b : UInt8) : Bool :=
  (sextet? b).isSome

/-! ### Writing -/

/-- The padded form. -/
def encode : Bytes → Bytes
  | a :: b :: c :: rest =>
    let n := a.toNat * 65536 + b.toNat * 256 + c.toNat
    symbol (n / 262144) :: symbol (n / 4096 % 64) :: symbol (n / 64 % 64) :: symbol (n % 64) ::
      encode rest
  | [a, b] =>
    let n := (a.toNat * 256 + b.toNat) * 4
    [symbol (n / 4096), symbol (n / 64 % 64), symbol (n % 64), pad]
  | [a] =>
    let n := a.toNat * 16
    [symbol (n / 64), symbol (n % 64), pad, pad]
  | [] => []

/-- Lines of `lineBytes` bytes each, the last possibly shorter, each line in padded form and ended
by a line feed. -/
def encodeLines (lineBytes : Nat) (bs : Bytes) : Bytes :=
  (chunks (lineBytes - 1) bs).flatMap fun line => encode line ++ [0x0A]

theorem encode_length (bs : Bytes) : (encode bs).length = 4 * ((bs.length + 2) / 3) := by
  fun_induction encode bs with
  | case1 a b c rest n ih => simp only [List.length_cons, ih]; omega
  | case2 | case3 | case4 => simp

/-! ### Reading -/

/-- Why a text is not base64. -/
inductive Fault where
  /-- One symbol is left over, which is too few for a byte. -/
  | leftover
  /-- A byte that is no symbol, or padding where none may stand. -/
  | badByte (b : UInt8) (offset : Nat)
  /-- The last symbol carries bits that belong to no byte. -/
  | badLastSymbol (b : UInt8) (offset : Nat)
  /-- Padding is missing. -/
  | badPadding
deriving DecidableEq, Repr

/-- The fault in words. -/
def Fault.message : Fault → String
  | .leftover => "Encoded text cannot have a 6-bit remainder."
  | .badByte b offset => s!"Invalid byte {b.toNat}, offset {offset}."
  | .badLastSymbol b offset => s!"Invalid last symbol {b.toNat}, offset {offset}."
  | .badPadding => "Invalid padding"

/-- The whole bytes in a row of six-bit values; bits left over are dropped. -/
def octets : List Nat → Bytes
  | a :: b :: c :: d :: rest =>
    let n := a * 262144 + b * 4096 + c * 64 + d
    UInt8.ofNat (n / 65536) :: UInt8.ofNat (n / 256 % 256) :: UInt8.ofNat (n % 256) :: octets rest
  | [a, b, c] =>
    let n := a * 4096 + b * 64 + c
    [UInt8.ofNat (n / 1024), UInt8.ofNat (n / 4 % 256)]
  | [a, b] => [UInt8.ofNat ((a * 64 + b) / 16)]
  | _ => []

/-- The bits that `octets` drops, as a number. -/
def droppedBits : List Nat → Nat
  | _ :: _ :: _ :: _ :: rest => droppedBits rest
  | [_, _, c] => c % 4
  | [_, b] => b % 16
  | _ => 0

/-- Reads symbols without padding. -/
def decodeSymbols (symbols : Bytes) : Except Fault Bytes :=
  if symbols.length % 4 = 1 then .error .leftover
  else .ok (octets (symbols.filterMap sextet?))

/-- Whether bytes behind `count` symbols are padding that may stand there: only `=`, after two or
three symbols of a group, and not beyond that group. -/
def isPadding (count : Nat) (bs : Bytes) : Bool :=
  bs.isEmpty || (bs.all (· == pad) && 2 ≤ count % 4 && count % 4 + bs.length ≤ 4)

/-- Reads a whole text in padded form.  Among several faults the order is: one symbol left over, a
bad byte, padding missing, bits left over. -/
def decode (text : Bytes) : Except Fault Bytes :=
  let symbols := text.takeWhile isSymbol
  let behind := text.dropWhile isSymbol
  let count := symbols.length
  if text.length % 4 = 1 then
    match text.getLast? with
    | some last =>
      if isSymbol last || last == pad then .error .leftover
      else .error (.badByte last (text.length - 1))
    | none => .error .leftover
  else if ! isPadding count behind then
    .error (.badByte (behind.headD pad) count)
  else if text.length % 4 ≠ 0 then .error .badPadding
  else
    let sextets := symbols.filterMap sextet?
    if droppedBits sextets ≠ 0 then .error (.badLastSymbol (symbols.getLastD pad) (count - 1))
    else .ok (octets sextets)

/-- Splits a segment off the front: its symbols, and the bytes behind it.  The segment ends behind
the first run of `=` and one line break; what is neither symbol nor `=` is skipped. -/
def segment (bs : Bytes) : Bytes × Bytes :=
  let symbols := (bs.takeWhile (· != pad)).filter isSymbol
  let behind := (bs.dropWhile (· != pad)).dropWhile (· == pad)
  match behind with
  | 0x0D :: 0x0A :: rest => (symbols, rest)
  | 0x0A :: rest => (symbols, rest)
  | rest => (symbols, rest)

end DirectivePack.Base64
